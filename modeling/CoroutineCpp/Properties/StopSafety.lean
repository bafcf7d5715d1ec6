import CoroutineCpp.Model.SchedCalls
import CoroutineCpp.Properties.DispatchOutcome

/-!
# Indexing and division around `CoScheduler::Stop`

`Stop` empties the executor table.  `DispatchTasksEqually` tests its total load before it divides
or looks at executor 0, and indexes with what it has just counted, so a pass is defined on every
table, the empty one included (`dispatchChecked_eq`); so is `Stop`.  `AddTask` tests only for a
size of one and divides by zero on the empty table (`addTask_of_size_eq_zero`).  A sequence of
calls is therefore defined exactly when it schedules nothing after a `Stop`
(`calls_defined_iff`).
-/

namespace CoroutineCpp

open Framework

/-! ## Checks that succeed -/

@[simp] lemma executorAt_of_lt {size i : ℕ} (h : i < size) (t : Executors) :
    executorAt size t i = .ok (t i) := if_pos h

lemma checkedDiv_of_pos {b : ℕ} (h : 0 < b) (a : ℕ) : checkedDiv a b = .ok (a / b) :=
  if_neg h.ne'

lemma checkedMod_of_pos {b : ℕ} (h : 0 < b) (a : ℕ) : checkedMod a b = .ok (a % b) :=
  if_neg h.ne'

@[simp] lemma ok_bind {α β : Type} (a : α) (f : α → Except Undefined β) :
    (Except.ok a >>= f) = f a := rfl

/-! ## A pass is defined on every table -/

lemma countLoopChecked_eq {size : ℕ} {l : List ℕ} (hl : ∀ i ∈ l, i < size) (t : Executors)
    (totals : ℕ × ℕ) :
    countLoopChecked size t l totals =
      .ok (totals.1 + (l.map fun i => (t i).getRunnableCount).sum,
        totals.2 + (l.map fun i => (t i).getWaitingCount).sum) := by
  induction l generalizing totals with
  | nil => rfl
  | cons i l ih =>
    obtain ⟨hi, hl⟩ := List.forall_mem_cons.mp hl
    simp [countLoopChecked, hi, ih hl, Nat.add_assoc]

lemma stealLoopChecked_eq {size : ℕ} {l : List ℕ} (hl : ∀ i ∈ l, i < size) (blocking : ℕ → Bool)
    (p : DispatchState × Executors) :
    stealLoopChecked size blocking l p = .ok (stealLoop blocking l p) := by
  induction l generalizing p with
  | nil => rfl
  | cons i l ih =>
    obtain ⟨hi, hl⟩ := List.forall_mem_cons.mp hl
    simp only [stealLoopChecked, stealLoop, executorAt_of_lt hi, ok_bind, ih hl]
    split <;> rfl

lemma handOutLoopChecked_eq {size : ℕ} {items : List (ℕ × ℕ)} (hl : ∀ p ∈ items, p.1 < size)
    (p : DispatchState × Executors) :
    handOutLoopChecked size items p = .ok (handOutLoop items p) := by
  induction items generalizing p with
  | nil => rfl
  | cons item items ih =>
    obtain ⟨hi, hl⟩ := List.forall_mem_cons.mp hl
    simp only [handOutLoopChecked, handOutLoop, executorAt_of_lt hi, ok_bind, ih hl]
    split
    · rfl
    · split <;> rfl

lemma handOutRestChecked_eq {size : ℕ} {p : DispatchState × Executors}
    (hmin : p.1.minLoadIdx < size) : handOutRestChecked size p = .ok (handOutRest p) := by
  simp only [handOutRestChecked, handOutRest, executorAt_of_lt hmin, ok_bind]
  split <;> rfl

/-- The hand-out does not touch the index of the least loaded executor. -/
lemma handOutLoop_minLoadIdx (items : List (ℕ × ℕ)) (p : DispatchState × Executors) :
    (handOutLoop items p).1.minLoadIdx = p.1.minLoadIdx := by
  induction items generalizing p with
  | nil => rfl
  | cons item items ih =>
    simp only [handOutLoop]
    split
    · exact ih _
    · split
      · rfl
      · exact ih _

/-- **Every check in a pass succeeds, whatever the table**: the checked pass is the pass. -/
theorem dispatchChecked_eq (size : ℕ) (blocking : ℕ → Bool) (t : Executors) :
    dispatchChecked size blocking t = .ok (dispatchTasksEqually size blocking t) := by
  have hrange : ∀ i ∈ List.range size, i < size := fun i => List.mem_range.mp
  simp only [dispatchChecked, dispatchTasksEqually, countLoopChecked_eq hrange, ok_bind,
    Nat.zero_add]
  split
  next => rfl
  next hload =>
    have hpos : 0 < size := by
      rcases Nat.eq_zero_or_pos size with rfl | hpos
      · exact absurd rfl hload
      · exact hpos
    rw [checkedDiv_of_pos hpos, avgLoad_eq]
    simp only [ok_bind, executorAt_of_lt hpos, stealLoopChecked_eq hrange]
    obtain ⟨k, hcol⟩ := stealLoop_collected hpos blocking t
      ((List.range size).map fun i => (t i).getRunnableCount).sum
      ((List.range size).map fun i => (t i).getWaitingCount).sum
    generalize stealLoop blocking (List.range size) _ = p at hcol ⊢
    split
    next => rfl
    next =>
      have hkeys : ∀ item ∈ p.1.lowLoad, item.1 < size := by
        rw [hcol.lowLoad_eq]
        exact fun item hitem => List.mem_range.mp (DispatchState.fst_mem_of_mem_lowItems hitem)
      have hmin : (handOutLoop p.1.lowLoad p).1.minLoadIdx < size := by
        rw [handOutLoop_minLoadIdx, hcol.minLoadIdx_eq]
        exact hcol.least.lt
      rw [handOutLoopChecked_eq hkeys, ok_bind, handOutRestChecked_eq hmin]

namespace CoScheduler

variable {s : CoScheduler} {tk : CoTaskPtr} {random : ℕ}

/-! ## The calls -/

/-- `Stop` ends with the flag set and an empty table, whatever it finds. -/
lemma stop_eq (s : CoScheduler) :
    ∃ t, s.stop = .ok { size := 0, executors := t, stopping := true } := by
  have hloop : ∀ l : List ℕ, (∀ i ∈ l, i < s.size) → ∀ t, ∃ t', stopLoop s.size l t = .ok t' := by
    intro l hl
    induction l with
    | nil => exact fun t => ⟨t, rfl⟩
    | cons i l ih =>
      intro t
      obtain ⟨hi, hl⟩ := List.forall_mem_cons.mp hl
      simp only [stopLoop, executorAt_of_lt hi, ok_bind]
      exact ih hl _
  obtain ⟨t, ht⟩ := hloop (List.range s.size) (fun i => List.mem_range.mp) s.executors
  exact ⟨t, by simp [stop, ht]⟩

lemma dispatchTasksEqually_eq (blocking : ℕ → Bool) (s : CoScheduler) :
    s.dispatchTasksEqually blocking =
      .ok { s with
        executors := (CoroutineCpp.dispatchTasksEqually s.size blocking s.executors).2 } := by
  simp [dispatchTasksEqually, dispatchChecked_eq]

/-- With an executor in the table, `AddTask` adds to one of them. -/
lemma addTask_of_pos (h : 0 < s.size) :
    ∃ t, s.addTask tk random = .ok { s with executors := t } := by
  unfold addTask
  split
  next =>
    rw [executorAt_of_lt h]
    exact ⟨_, rfl⟩
  next =>
    rw [checkedMod_of_pos h, ok_bind, executorAt_of_lt (Nat.mod_lt random h)]
    exact ⟨_, rfl⟩

/-- On the empty table `AddTask` takes the remainder by zero. -/
lemma addTask_of_size_eq_zero (h : s.size = 0) : s.addTask tk random = .error .divisionByZero := by
  simp only [addTask, h, checkedMod]
  rfl

/-- A call is defined unless it schedules on an empty table, and only `Stop` empties a table. -/
lemma call_defined (s : CoScheduler) (c : SchedCall) (h : c.IsSchedulerTask → 0 < s.size) :
    ∃ s', s.call c = .ok s' ∧ (c.IsStop → s'.size = 0) ∧ (¬ c.IsStop → s'.size = s.size) := by
  cases c with
  | schedulerTask tk random =>
    obtain ⟨t, ht⟩ : ∃ t, s.addTask tk random = .ok { s with executors := t } :=
      addTask_of_pos (h trivial)
    exact ⟨_, ht, False.elim, fun _ => rfl⟩
  | stop =>
    obtain ⟨t, ht⟩ := stop_eq s
    exact ⟨_, ht, fun _ => rfl, fun hstop => absurd trivial hstop⟩
  | pass blocking =>
    exact ⟨_, dispatchTasksEqually_eq blocking s, False.elim, fun _ => rfl⟩
  | others t => exact ⟨_, rfl, False.elim, fun _ => rfl⟩

/-! ## Sequences of calls -/

/-- On the empty table a sequence of calls is defined exactly when it schedules nothing. -/
lemma calls_of_size_eq_zero {cs : List SchedCall} (hs : s.size = 0) :
    (∃ s', s.calls cs = .ok s') ↔ ∀ c ∈ cs, ¬ c.IsSchedulerTask := by
  induction cs generalizing s with
  | nil => exact iff_of_true ⟨s, rfl⟩ (by simp)
  | cons c cs ih =>
    rw [List.forall_mem_cons]
    by_cases hc : c.IsSchedulerTask
    · refine iff_of_false ?_ fun h => h.1 hc
      rintro ⟨s', hs'⟩
      cases c with
      | schedulerTask tk random =>
        simp only [calls, call, schedulerTask, addTask_of_size_eq_zero hs] at hs'
        cases hs'
      | _ => exact hc
    · obtain ⟨s₁, hcall, hstop, hkeep⟩ := call_defined s c fun h => absurd h hc
      have hs₁ : s₁.size = 0 := by
        by_cases h : c.IsStop
        · exact hstop h
        · exact (hkeep h).trans hs
      rw [and_iff_right hc, ← ih hs₁, calls, hcall]
      rfl

/-- With executors in the table it is defined exactly when it schedules nothing after a
`Stop`. -/
lemma calls_of_pos {cs : List SchedCall} (hs : 0 < s.size) :
    (∃ s', s.calls cs = .ok s') ↔ cs.Pairwise fun a b => a.IsStop → ¬ b.IsSchedulerTask := by
  induction cs generalizing s with
  | nil => exact iff_of_true ⟨s, rfl⟩ .nil
  | cons c cs ih =>
    obtain ⟨s₁, hcall, hstop, hkeep⟩ := call_defined s c fun _ => hs
    rw [List.pairwise_cons, calls, hcall]
    by_cases hc : c.IsStop
    · refine (calls_of_size_eq_zero (hstop hc)).trans ⟨fun h => ⟨fun b hb _ => h b hb, ?_⟩, ?_⟩
      · exact List.pairwise_of_forall_mem_list fun a _ b hb _ => h b hb
      · exact fun h b hb => h.1 b hb hc
    · refine (ih ((hkeep hc).symm ▸ hs)).trans ⟨fun h => ⟨fun b _ h' => absurd h' hc, h⟩, ?_⟩
      exact fun h => h.2

/-- **When indexing and division are safe around `Stop`.**  A sequence of `SchedulerTask` calls,
`Stop` calls and dispatcher passes, whatever the executors do in between and whatever `rand()`
answers, divides by no zero and indexes within the table exactly when no `SchedulerTask` comes
after a `Stop`. -/
theorem calls_defined_iff (more : ℕ) (t : Executors) (cs : List SchedCall) :
    (∃ s, (started more t).calls cs = .ok s) ↔
      cs.Pairwise fun a b => a.IsStop → ¬ b.IsSchedulerTask :=
  calls_of_pos (Nat.succ_pos more)

/-- `Stop`, then `SchedulerTask`: the remainder by the size of the empty table. -/
theorem schedulerTask_after_stop :
    (∃ s, (started 1 (fun _ => {})).calls [.stop, .pass fun _ => false] = .ok s) ∧
      (started 1 (fun _ => {})).calls [.stop, .schedulerTask 1 0] = .error .divisionByZero ∧
      ¬ ∃ s, (started 1 (fun _ => {})).calls [.stop, .schedulerTask 1 0] = .ok s := by
  have herror : (started 1 (fun _ => {})).calls [.stop, .schedulerTask 1 0] =
      .error .divisionByZero := rfl
  refine ⟨⟨_, rfl⟩, herror, ?_⟩
  rintro ⟨s, hs⟩
  rw [herror] at hs
  cases hs

end CoScheduler

end CoroutineCpp
