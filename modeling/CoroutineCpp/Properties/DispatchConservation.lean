import CoroutineCpp.Model.DispatchInterference
import CoroutineCpp.Properties.DispatchPass

/-!
# A dispatcher pass conserves the tasks under interference

`PassState.Inv` ties the local variables of a pass (`DispatchState.Wf`, which no other thread can
touch) to the equation of the tasks: what is in the runnable queues, in the hands of the pass and
taken by executors is what was there at first and what was added since.  `step_inv` preserves it
through every step of the pass (`StepEffect.pool_eq`) and of the threads around it, and
`interferedPass_conserves` reads the law off it.
-/

namespace CoroutineCpp

open Framework TransitionSystem

namespace PassState

/-- The invariant of a pass over `size` executors that began with the contents `t₀`. -/
structure Inv (size : ℕ) (t₀ : Executors) (s : PassState) : Prop where
  wf : s.disp.Wf
  inBounds : s.disp.InBounds size
  balance : pool size s.executors s.disp + (s.taken : Multiset CoTaskPtr) =
    runnables size t₀ + (s.added : Multiset CoTaskPtr)

lemma init_inv (size : ℕ) (t₀ : Executors) :
    Inv size t₀ { executors := t₀, disp := .start size } where
  wf := DispatchState.start_wf size
  inBounds := ⟨by unfold DispatchState.start; split_ifs <;> simp, rfl⟩
  balance := by simp [pool, DispatchState.outstanding, DispatchState.start]

/-- Appending to the runnable queue of an executor of the table, and to what was added. -/
lemma Inv.append {size : ℕ} {t₀ : Executors} {s : PassState} (hs : s.Inv size t₀) {e : ℕ}
    (he : e < size) (tks : List CoTaskPtr) :
    Inv size t₀ { s with
      executors := Function.update s.executors e
        { s.executors e with runnableQueue := (s.executors e).runnableQueue ++ tks }
      added := s.added ++ tks } where
  wf := hs.wf
  inBounds := hs.inBounds
  balance := by
    have h := hs.balance
    rw [pool] at h ⊢
    rw [runnables_append he rfl, ← Multiset.coe_add, ← add_assoc, ← h]
    abel

lemma Inv.take {size : ℕ} {t₀ : Executors} {s : PassState} (hs : s.Inv size t₀) {e : ℕ}
    (he : e < size) {tk : CoTaskPtr} {rest : List CoTaskPtr}
    (hq : (s.executors e).runnableQueue = tk :: rest) :
    Inv size t₀ { s with
      executors := Function.update s.executors e { s.executors e with runnableQueue := rest }
      taken := s.taken ++ [tk] } where
  wf := hs.wf
  inBounds := hs.inBounds
  balance := by
    have h := hs.balance
    have hpop : runnables size s.executors = tk ::ₘ runnables size (Function.update s.executors e
        { s.executors e with runnableQueue := rest }) := runnables_pop he hq
    rw [pool] at h ⊢
    rw [← h, hpop, ← Multiset.coe_add, Multiset.coe_singleton, ← Multiset.singleton_add]
    abel

/-- A change of a waiting queue is invisible to the balance. -/
lemma Inv.setWaiting {size : ℕ} {t₀ : Executors} {s : PassState} (hs : s.Inv size t₀) (e : ℕ)
    (tks : List CoTaskPtr) :
    Inv size t₀ (s.setExecutor e { s.executors e with waitingQueue := tks }) where
  wf := hs.wf
  inBounds := hs.inBounds
  balance := by
    have h := hs.balance
    have hsame : runnables size (s.setExecutor e
        { s.executors e with waitingQueue := tks }).executors = runnables size s.executors :=
      runnables_update_of_eq size rfl
    rw [pool] at h ⊢
    rw [hsame]
    exact h

lemma step_inv {size : ℕ} {t₀ : Executors} {s s' : PassState} {a : PassAct}
    (hs : s.Inv size t₀) (h : s.step size a = some s') : s'.Inv size t₀ := by
  cases a with
  | pass blocking =>
    obtain ⟨⟨d', t'⟩, hstep, rfl⟩ := Option.map_eq_some_iff.mp h
    have heff := DispatchState.step_effect hs.wf hstep
    refine ⟨DispatchState.step_wf hs.wf hstep,
      DispatchState.step_inBounds hs.wf hs.inBounds le_rfl hstep, ?_⟩
    exact (congrArg (· + _) (heff.pool_eq hs.inBounds.2.le)).trans hs.balance
  | addTask e tk =>
    simp only [step, setExecutor, CoExecutor.addTask_fst] at h
    split at h
    next he => exact Option.some.inj h ▸ hs.append he _
    next => cases h
  | addTasks e tks =>
    simp only [step, setExecutor, CoExecutor.addTasks_fst] at h
    split at h
    next he => exact Option.some.inj h ▸ hs.append he tks
    next => cases h
  | take e =>
    simp only [step] at h
    split at h
    next => cases h
    next tk rest hq =>
      split at h
      next he => exact Option.some.inj h ▸ hs.take he hq
      next => cases h
  | setWaiting e tks =>
    simp only [step] at h
    split at h
    next => exact Option.some.inj h ▸ hs.setWaiting e tks
    next => cases h

lemma reachable_inv {size : ℕ} {t₀ : Executors} {s : PassState}
    (hs : (interferedPass size t₀).Reachable s) : s.Inv size t₀ := by
  refine ReachableUnder.invariant (I := Inv size t₀) ?_ ?_ hs
  · rintro _ rfl
    exact init_inv size t₀
  · intro s a s' _ hI _ hstep
    exact step_inv hI hstep

end PassState

/-! ## The law -/

/-- **A pass conserves the tasks, whatever other threads do between its queue operations.**  At
every point the tasks in runnable queues, in the hands of the pass and taken are those there at
first and those added; what was pushed so far, followed by what is in hand, is the stolen
sequence itself, so that at the end each stolen task has been pushed to one executor once.
Neither subtraction of loads wraps, a non-blocking donor never passes `n = 0`, and no index leaves
the table. -/
theorem interferedPass_conserves {size : ℕ} {t₀ : Executors} {s : PassState}
    (hs : (interferedPass size t₀).Reachable s) :
    runnables size s.executors + (s.disp.outstanding : Multiset CoTaskPtr) +
        (s.taken : Multiset CoTaskPtr) =
      runnables size t₀ + (s.added : Multiset CoTaskPtr) ∧
    s.disp.handed.map Prod.snd ++ s.disp.outstanding = s.disp.stolen ∧
    (∀ p ∈ s.disp.handed, p.1 < size) ∧
    (s.disp.pc = .idle → s.disp.outstanding = [] ∧ s.disp.handed.map Prod.snd = s.disp.stolen) ∧
    (∀ idx load, s.disp.pc = .giveUp idx load →
      s.disp.avgLoad ≤ load ∧ wrapSub load s.disp.avgLoad ≠ 0) ∧
    (∀ idx load items, s.disp.pc = .handOut ((idx, load) :: items) → load ≤ s.disp.avgLoad) ∧
    s.disp.pc ≠ .outOfBounds := by
  have hinv := PassState.reachable_inv hs
  have hok := hinv.wf.pcOk
  have hhanded := hinv.wf.handed_eq
  have hsplit : s.disp.handed.map Prod.snd ++ s.disp.outstanding = s.disp.stolen := by
    rw [hhanded, DispatchState.outstanding, List.take_append_drop]
  refine ⟨hinv.balance, hsplit, ?_, ?_, ?_, ?_, hinv.inBounds.1⟩
  · intro p hp
    exact (hinv.wf.handed_lt p hp).trans_eq hinv.inBounds.2
  · intro hpc
    have hnil := hinv.wf.outstanding_eq_nil hpc
    exact ⟨hnil, by simpa [hnil] using hsplit⟩
  · intro idx load hpc
    simp only [DispatchState.PcOk, hpc] at hok
    have hlt := hok.2.2.2
    exact ⟨hlt.le, by rw [wrapSub_of_le hlt.le]; omega⟩
  · intro idx load items hpc
    simp only [DispatchState.PcOk, hpc] at hok
    exact (hok.2.2 (idx, load) (by simp)).2

/-- Two executors, the first with three runnable tasks.  Between the size read and the steal a
producer adds a task to the first, which takes one itself; two tasks are stolen and handed to the
second. -/
theorem interferedPass_conserves_two_executors :
    ∃ s : PassState, s.disp.pc = .idle ∧ s.disp.stolen = [3, 4] ∧ s.added = [4] ∧ s.taken = [1] ∧
      runnables 2 s.executors + (s.disp.outstanding : Multiset CoTaskPtr) +
          (s.taken : Multiset CoTaskPtr) =
        runnables 2 (Function.update (fun _ => {}) 0 { runnableQueue := [1, 2, 3] }) +
          (s.added : Multiset CoTaskPtr) := by
  obtain ⟨s, hs, hp⟩ := exists_reachable_of_runUnder (G := fun _ _ => True)
    (M := interferedPass 2 (Function.update (fun _ => {}) 0 { runnableQueue := [1, 2, 3] }))
    (List.flatten [List.replicate 5 (.pass false), [.addTask 0 4, .take 0],
      List.replicate 6 (.pass false)])
    (fun s => s.disp.pc = .idle && s.disp.stolen = [3, 4] && s.added = [4] && s.taken = [1])
    rfl (by decide)
  simp only [Bool.and_eq_true, decide_eq_true_eq] at hp
  exact ⟨s, hp.1.1.1, hp.1.1.2, hp.1.2, hp.2, (interferedPass_conserves hs).1⟩

end CoroutineCpp
