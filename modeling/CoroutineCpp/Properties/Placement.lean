import CoroutineCpp.Properties.Ledger

/-!
# Every task is in one place

`Placed` is the placement invariant of the runs that do not run `WakeupAllTasks` in parts.  Its
equation (`TaskLedger.Placed`) is about the ledger: the stations hold each submitted task once.  To
it come the statuses, by which the station of a task can be told; between the push of a `Hold` and
its switch a task waits, or has been woken already, while it still runs (`AboutToHold`).

`task_placement` reads the law off the invariant for the runs without `Yield` whose operations
are whole.
-/

namespace CoroutineCpp

open Framework TransitionSystem Relation TaskLedger

namespace Sched

/-- The task is about to be held: it is in the waiting or the awoken queue of the executor that
runs it still. -/
def AboutToHold (s : Sched) (e : ℕ) (tk : CoTaskPtr) : Prop :=
  (s.pc e).onCpu = true ∧ (s.pc e).isResumed = false ∧ (s.executors e).runningTask = tk

/-- The task is in the waiting or the awoken queue of executor `e`. -/
def Held (s : Sched) (e : ℕ) (tk : CoTaskPtr) : Prop :=
  tk ∈ (s.executors e).waitingQueue ∨ tk ∈ (s.executors e).awokenQueue

/-- The status agrees with `Held`. -/
def HeldOk (s : Sched) (e : ℕ) (tk : CoTaskPtr) : Prop :=
  (s.tasks tk).co.status = .hold ∨ (s.tasks tk).co.status = .running ∧ s.AboutToHold e tk

/-- The placement invariant. -/
structure Placed (s : Sched) : Prop where
  balance : s.ledger.Placed
  ended_status : ∀ tk ∈ s.ended, (s.tasks tk).co.status = .finished ∨
    (s.tasks tk).co.status = .except
  held_ok : ∀ e tk, s.Held e tk → s.HeldOk e tk

variable {s s' : Sched} {e : ℕ} {tk : CoTaskPtr}

lemma Placed.tokens_nodup (hp : s.Placed) (hs : s.Affine) : s.ledger.tokens.Nodup := by
  rw [show s.ledger.tokens = s.submitted from hp.balance]
  exact Multiset.coe_nodup.mpr hs.nodup

/-- A held task is not over. -/
lemma Placed.not_over (hp : s.Placed) (h : s.Held e tk) :
    ¬ ((s.tasks tk).co.status = .finished ∨ (s.tasks tk).co.status = .except) := by
  rintro (hst | hst) <;> rcases hp.held_ok e tk h with hh | ⟨hh, -⟩ <;> simp [hst] at hh

/-- A held task is held by the executor that started it, so by one that exists. -/
lemma Held.started (h : s.Held e tk) (hs : s.Affine) (hst : (s.tasks tk).co.status ≠ .idle) :
    (s.tasks tk).StartedOn e := by
  rcases h with h | h
  · exact hs.waiting_started e tk h
  · exact hs.awoken_started e tk h (hs.ne_null_of_status hst)

lemma Held.mem_ledger (h : s.Held e tk) (he : e < s.n) :
    tk ∈ s.ledger.waiting ∨ tk ∈ s.ledger.awoken :=
  h.imp (fun h => mem_total.mpr ⟨e, he, h⟩) fun h => mem_total.mpr ⟨e, he, h⟩

lemma Held.of_eq (h : s'.Held e tk)
    (hw : (s'.executors e).waitingQueue = (s.executors e).waitingQueue)
    (ha : (s'.executors e).awokenQueue = (s.executors e).awokenQueue) : s.Held e tk := by
  rw [Held, hw, ha] at h
  exact h

/-- A step that changes no thread and no task. -/
lemma HeldOk.congr (h : s.HeldOk e tk) (hpc : s'.pc = s.pc) (htasks : s'.tasks = s.tasks)
    (hrun : (s'.executors e).runningTask = (s.executors e).runningTask) : s'.HeldOk e tk := by
  rw [HeldOk, AboutToHold, hpc, htasks, hrun]
  exact h

/-- A step that changes one executor, its thread and one task. -/
lemma HeldOk.frame (h : s.HeldOk e tk) (e₀ : ℕ) (hpc : ∀ e, e ≠ e₀ → s'.pc e = s.pc e)
    (hrun : ∀ e, e ≠ e₀ → s'.executors e = s.executors e)
    (htask : (s'.tasks tk).co.status = (s.tasks tk).co.status)
    (hne : s.AboutToHold e tk → e ≠ e₀) : s'.HeldOk e tk := by
  rw [HeldOk, htask]
  refine h.imp_right (And.imp_right fun hab => ?_)
  rw [AboutToHold, hpc e (hne hab), hrun e (hne hab)]
  exact hab

lemma mem_ended_of_eq {e : ℕ} {ex' : CoExecutor} {tk : CoTaskPtr} (htk : tk ∈ s'.ended)
    (hn : s'.n = s.n) (hex : s'.executors = Function.update s.executors e ex')
    (hrec : s'.reclaimed = s.reclaimed)
    (hfin : ex'.finishedQueue = (s.executors e).finishedQueue) : tk ∈ s.ended :=
  ended_update_of_eq hn hex hrec hfin ▸ htk

lemma mem_ended_update {e : ℕ} {ex' : CoExecutor} {reclaimed l : List CoTaskPtr} {tk : CoTaskPtr}
    (htk : tk ∈ s'.ended) (he : e < s.n) (hn : s'.n = s.n)
    (hex : s'.executors = Function.update s.executors e ex')
    (hrec : s'.reclaimed = s.reclaimed ++ reclaimed)
    (hfin : reclaimed ++ ex'.finishedQueue = (s.executors e).finishedQueue ++ l) :
    tk ∈ s.ended ∨ tk ∈ l := by
  rw [ended_update he hn hex hrec hfin] at htk
  exact (Multiset.mem_add.mp htk).imp_right Multiset.mem_coe.mp

/-- A task that is on a CPU, and not on its way into `Hold`, is not held. -/
lemma Placed.not_held_of_running {e₀ : ℕ} (hp : s.Placed) (hs : s.Affine) (he : e₀ < s.n)
    (hres : (s.pc e₀).isResumed = true) : ¬ s.Held e (s.executors e₀).runningTask := by
  intro hheld
  have hcpu : (s.executors e₀).runningTask ∈ s.ledger.cpu :=
    mem_total.mpr ⟨e₀, he, by simp [onCpu, hres]⟩
  obtain ⟨hnw, hna⟩ := notMem_of_cpu (hp.tokens_nodup hs) hcpu
  have hrun := hs.cpu.running e₀ (ProcessPc.onCpu_of_resumed hres)
  have hlt := hs.proc_lt _ e (hheld.started hs (by simp [hrun])).proc
  rcases hheld.mem_ledger hlt with hmem | hmem
  · exact hnw hmem
  · exact hna hmem

/-- What is held after a pop of an awoken task was held before, and is another task. -/
lemma Placed.held_of_pop {e₀ : ℕ} {tk₀ : CoTaskPtr} {ex' : CoExecutor} (hp : s.Placed)
    (hs : s.Affine) (he : e₀ < s.n) (hq : (s.executors e₀).awokenQueue = tk₀ :: ex'.awokenQueue)
    (hw : ex'.waitingQueue = (s.executors e₀).waitingQueue)
    (hhold : (s.tasks tk₀).co.status = .hold)
    (htk : tk ∈ (Function.update s.executors e₀ ex' e).waitingQueue ∨
      tk ∈ (Function.update s.executors e₀ ex' e).awokenQueue) : s.Held e tk ∧ tk ≠ tk₀ := by
  have hpop : s.ledger.awoken = tk₀ ::ₘ awokens s.n (Function.update s.executors e₀ ex') :=
    total_update_remove CoExecutor.awokenQueue he (.of_eq hq)
  obtain ⟨hnw, hna⟩ := notMem_of_awoken (hp.tokens_nodup hs) hpop
  have hheld : s.Held e tk := by
    refine htk.imp (update_view CoExecutor.waitingQueue hw e ▸ ·) fun hmem => ?_
    by_cases heq : e = e₀
    · subst heq
      simp only [Function.update_self] at hmem
      simp [hq, hmem]
    · simpa only [Function.update_of_ne heq] using hmem
  refine ⟨hheld, ?_⟩
  rintro rfl
  have hlt := hs.proc_lt tk e (hheld.started hs (by simp [hhold])).proc
  rcases htk with hmem | hmem
  · rw [update_view CoExecutor.waitingQueue hw e] at hmem
    exact hnw (mem_total.mpr ⟨e, hlt, hmem⟩)
  · exact hna (mem_total.mpr ⟨e, hlt, hmem⟩)

namespace Effect

/-! ## Every effect preserves the invariant -/

lemma balance (h : Effect s s') (hs : s.Affine) (hp : s.Placed) : s'.ledger.Placed := by
  rcases h.entry hs with hentry | ⟨⟨e, tk, htk, hover⟩, -⟩
  · exact hentry.placed hp.balance
  · exact absurd hover (hp.not_over (.inl htk))

lemma ended_status (h : Effect s s') (hs : s.Affine) (hp : s.Placed) :
    ∀ tk ∈ s'.ended, (s'.tasks tk).co.status = .finished ∨ (s'.tasks tk).co.status = .except := by
  have hold := hp.ended_status
  cases h with
  | quiet h => rw [h.ended, h.tasks]; exact hold
  | submit => exact fun tk htk => hold tk (mem_ended_of_eq htk rfl rfl rfl rfl)
  | @pass d' t' h hwf hcount =>
    have hfin : ∀ e, (t' e).finishedQueue = (s.executors e).finishedQueue :=
      fun e => by rw [h.frame e]
    have hover : Sched.ended { s with disp := d', executors := t' } = s.ended :=
      congrArg (· + (s.reclaimed : Multiset CoTaskPtr)) (total_congr hfin)
    rwa [hover]
  | @start e tk ex' pc' he hpc hpc' hq hex hfin hrun hco =>
    intro tk' htk'
    have hst := hold tk' (mem_ended_of_eq htk' rfl rfl rfl hfin)
    have hne : tk' ≠ tk := by
      rintro rfl
      simp [hco] at hst
    simpa [hne] using hst
  | @resume e tk ex' pc' he hpc hpc' hq hex hfin hrun hhold =>
    intro tk' htk'
    have hst := hold tk' (mem_ended_of_eq htk' rfl rfl rfl hfin)
    have hne : tk' ≠ tk := by
      rintro rfl
      simp [hhold] at hst
    simpa [hne] using hst
  | @inert e tk ex' pc' reclaimed thrown he hpc hpc' hq hex hfin hst =>
    exact absurd hst (hp.not_over (e := e) (.inr (by simp [hq])))
  | hold => exact fun tk htk => hold tk (mem_ended_of_eq htk rfl rfl rfl rfl)
  | @leave e ex' pc' task' reclaimed yielded thrown he hpc hpc' hex hfin href hstarted hout =>
    have hrun := hs.cpu.running e hpc
    intro tk' htk'
    rcases mem_ended_update htk' he rfl rfl rfl hfin with htk' | htk'
    · have hst := hold tk' htk'
      have hne : tk' ≠ (s.executors e).runningTask := by
        rintro rfl
        simp [hrun] at hst
      simpa [hne] using hst
    · rw [CoExecutor.justFinished] at htk'
      split at htk'
      next hst =>
        obtain rfl := List.mem_singleton.mp htk'
        simpa using hst
      next => simp at htk'
  | wake => exact fun tk htk => hold tk (mem_ended_of_eq htk rfl rfl rfl rfl)
  | wakeExpired => exact fun tk htk => hold tk (mem_ended_of_eq htk rfl rfl rfl rfl)

lemma held_ok (h : Effect s s') (hs : s.Affine) (hp : s.Placed) :
    ∀ e tk, s'.Held e tk → s'.HeldOk e tk := by
  have hold := hp.held_ok
  intro e tk htk
  cases h with
  | quiet h =>
    rw [Held, h.waitingQueue, h.awokenQueue] at htk
    rw [HeldOk, h.tasks]
    refine (hold e tk htk).imp_right (And.imp_right ?_)
    rintro ⟨hcpu, hres, hrun⟩
    have hpc : s'.pc e = s.pc e := by
      rcases h.pc e with heq | ⟨-, hoff, -⟩
      · exact heq
      · simp [hoff] at hcpu
    exact ⟨hpc ▸ hcpu, hpc ▸ hres, (h.runningTask e).trans hrun⟩
  | @submit e₀ tks he hnd hnew =>
    have hheld : s.Held e tk := by
      refine htk.of_eq ?_ ?_
      · apply update_view CoExecutor.waitingQueue; rfl
      · apply update_view CoExecutor.awokenQueue; rfl
    refine (hold e tk hheld).congr rfl rfl ?_
    apply update_view CoExecutor.runningTask; rfl
  | @pass d' t' h hwf hcount =>
    have hw : (t' e).waitingQueue = (s.executors e).waitingQueue := by rw [h.frame e]
    have ha : (t' e).awokenQueue = (s.executors e).awokenQueue := by rw [h.frame e]
    have hrun : (t' e).runningTask = (s.executors e).runningTask := by rw [h.frame e]
    exact (hold e tk (htk.of_eq hw ha)).congr rfl rfl hrun
  | @start e₀ tk₀ ex' pc' he hpc hpc' hq hex hfin hrun hco =>
    have hheld : s.Held e tk := htk.of_eq (update_view CoExecutor.waitingQueue hex.waitingQueue e)
      (update_view CoExecutor.awokenQueue hex.awokenQueue e)
    have hok := hold e tk hheld
    have hne : tk ≠ tk₀ := by
      rintro rfl
      rcases hok with hst | ⟨hst, -⟩ <;> simp [hco] at hst
    refine hok.frame e₀ (fun e h => by simp [h]) (fun e h => by simp [h]) (by simp [hne]) ?_
    rintro ⟨hcpu, -⟩ rfl
    simp [hpc] at hcpu
  | @resume e₀ tk₀ ex' pc' he hpc hpc' hq hex hfin hrun hhold =>
    obtain ⟨hheld, hne⟩ := hp.held_of_pop hs he hq hex.waitingQueue hhold htk
    refine (hold e tk hheld).frame e₀ (fun e h => by simp [h]) (fun e h => by simp [h])
      (by simp [hne]) ?_
    rintro ⟨hcpu, -⟩ rfl
    simp [hpc] at hcpu
  | @inert e₀ tk₀ ex' pc' reclaimed thrown he hpc hpc' hq hex hfin hst =>
    exact absurd hst (hp.not_over (e := e₀) (.inr (by simp [hq])))
  | @hold e₀ pc' he hpc hpc' =>
    obtain ⟨timeoutMs, last, rfl⟩ := hpc'
    have hmem : s.Held e tk ∨ e = e₀ ∧ tk = (s.executors e₀).runningTask := by
      by_cases heq : e = e₀
      · subst heq
        simpa [Held, or_assoc, or_comm, or_left_comm] using htk
      · exact .inl (by simpa [Held, heq] using htk)
    rcases hmem with hheld | ⟨rfl, rfl⟩
    · refine (hold e tk hheld).frame e₀ (fun e h => by simp [h]) (fun e h => by simp [h]) rfl ?_
      rintro ⟨-, hres, -⟩ rfl
      simp [hpc] at hres
    · refine .inr ⟨hs.cpu.running e (ProcessPc.onCpu_of_resumed hpc), ?_, ?_, ?_⟩ <;>
        simp [ProcessPc.onCpu, ProcessPc.isResumed]
  | @leave e₀ ex' pc' task' reclaimed yielded thrown he hpc hpc' hex hfin href hstarted hout =>
    have hheld : s.Held e tk := htk.of_eq (update_view CoExecutor.waitingQueue hex.waitingQueue e)
      (update_view CoExecutor.awokenQueue hex.awokenQueue e)
    by_cases heq : tk = (s.executors e₀).runningTask
    · subst heq
      rcases hout with ⟨-, hres, -⟩ | ⟨hst, -⟩ | ⟨hst, -⟩
      · exact absurd hheld (hp.not_held_of_running hs he hres)
      · exact .inl (by simpa using hst)
      · exact .inl (by simpa using hst)
    · refine (hold e tk hheld).frame e₀ (fun e h => by simp [h]) (fun e h => by simp [h])
        (by simp [heq]) ?_
      rintro ⟨-, -, hrun⟩ rfl
      exact heq hrun.symm
  | @wake e₀ tk₀ he htk₀ =>
    have hheld : s.Held e tk := by
      by_cases heq : e = e₀
      · subst heq
        rcases htk with hmem | hmem
        · simp only [Function.update_self] at hmem
          exact .inl (List.mem_of_mem_erase hmem)
        · simp only [Function.update_self] at hmem
          rcases List.mem_append.mp hmem with hmem | hmem
          · exact .inr hmem
          · obtain rfl := List.mem_singleton.mp hmem
            exact .inl htk₀
      · simpa [Held, heq] using htk
    refine (hold e tk hheld).congr rfl rfl ?_
    apply update_view CoExecutor.runningTask; rfl
  | @wakeExpired e₀ tk₀ he htk₀ hst => exact absurd hst (hp.not_over (.inl htk₀))

lemma placed (h : Effect s s') (hs : s.Affine) (hp : s.Placed) : s'.Placed :=
  ⟨h.balance hs hp, h.ended_status hs hp, h.held_ok hs hp⟩

end Effect

/-! ## Runs -/

lemma init_placed (h : schedSystem.init s) : s.Placed := by
  obtain ⟨n, id, rfl⟩ := h
  refine ⟨?_, ?_, ?_⟩
  · simp [TaskLedger.Placed, TaskLedger.tokens, ledger, pool, runnables, waitings, awokens, cpus,
      onCpu, ended, total, DispatchState.outstanding, ProcessPc.isResumed]
  · simp [ended, total]
  · simp [Held]

lemma reachable_placed {G : Sched → Act → Prop}
    (hG : ∀ s a, G s a → Fresh s a ∧ a.isWakerStep = false) (h : schedSystem.ReachableUnder G s) :
    s.Affine ∧ s.Placed :=
  effect_invariant hG (fun _ => init_placed) (fun _ _ hs hp heff => heff.placed hs hp) h

end Sched

end CoroutineCpp
