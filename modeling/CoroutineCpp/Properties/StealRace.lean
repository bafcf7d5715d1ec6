import CoroutineCpp.Model.PickSteps
import CoroutineCpp.Properties.DispatchPass

/-!
# Picks and steals that are not atomic

`ThreadOk` is what the tests of `Process` establish for the queue call that follows.  The producers
and the wakeups keep it, because they only push to the back.  A steal keeps it as long as it leaves
a task in the queue of an executor that is committed to it (`LeavesOne`); then the front, too, is
still the task that `Front` returned.  In the runs that meet this condition no call meets an empty
queue, and each submission is taken to run once (`pick_exactly_once`).

Without the condition both fail (`steal_breaks_pick`), and a single steal that violates it is
enough (`exists_fault_of_steal`).
-/

namespace CoroutineCpp

open Framework TransitionSystem

namespace PickState

variable {size : ℕ} {s s' : PickState} {e : ℕ}

/-- What the tests made so far say about the queues of an executor. -/
def ThreadOk (ex : CoExecutor) : PickPc → Prop
  | .bothAwoken last => last = true → ex.runnableQueue ≠ []
  | .onlyRunnableAwoken _ => ex.awokenQueue = [] → ex.runnableQueue ≠ []
  | .front true => ex.awokenQueue ≠ []
  | .front false => ex.runnableQueue ≠ []
  | .pop true => ex.awokenQueue ≠ []
  | .pop false => ex.runnableQueue.head? = some ex.runningTask
  | _ => True

/-- Pushes to the back of the queues keep it. -/
lemma ThreadOk.extend {ex ex' : CoExecutor} {pc : PickPc} (h : ThreadOk ex pc)
    (hr : ex.runnableQueue <+: ex'.runnableQueue) (ha : ex.awokenQueue <+: ex'.awokenQueue)
    (hrun : ex'.runningTask = ex.runningTask) : ThreadOk ex' pc := by
  obtain ⟨tks, hr⟩ := hr
  obtain ⟨tks', ha⟩ := ha
  cases pc with
  | bothAwoken last =>
    intro hlast
    simp [← hr, h hlast]
  | onlyRunnableAwoken last =>
    intro hnil
    rw [← ha] at hnil
    simp [← hr, h (List.append_eq_nil_iff.mp hnil).1]
  | front fromAwoken =>
    cases fromAwoken with
    | true =>
      have hne : ex.awokenQueue ≠ [] := h
      simp [ThreadOk, ← ha, hne]
    | false =>
      have hne : ex.runnableQueue ≠ [] := h
      simp [ThreadOk, ← hr, hne]
  | pop fromAwoken =>
    cases fromAwoken with
    | true =>
      have hne : ex.awokenQueue ≠ [] := h
      simp [ThreadOk, ← ha, hne]
    | false =>
      have hhead : ex.runnableQueue.head? = some ex.runningTask := h
      simp [ThreadOk, ← hr, hrun, List.head?_append, hhead]
  | _ => trivial

/-- A cut at the back of the runnable queue keeps it, where a committed thread is left a task. -/
lemma ThreadOk.cut {kept block : List CoTaskPtr} (h : ThreadOk (s.executors e) (s.pc e))
    (hq : (s.executors e).runnableQueue = kept ++ block)
    (hkept : s.committed e = true → kept ≠ []) :
    ThreadOk { s.executors e with runnableQueue := kept } (s.pc e) := by
  unfold committed at hkept
  cases hpc : s.pc e with
  | bothAwoken last => simpa [hpc, ThreadOk] using hkept
  | onlyRunnableAwoken last => simpa [hpc, ThreadOk] using hkept
  | front fromAwoken =>
    rw [hpc] at h
    cases fromAwoken with
    | true => exact h
    | false => simpa [hpc, ThreadOk] using hkept
  | pop fromAwoken =>
    rw [hpc] at h
    cases fromAwoken with
    | true => exact h
    | false =>
      have hne : kept ≠ [] := by simpa [hpc] using hkept
      have hhead : (kept ++ block).head? = some (s.executors e).runningTask := hq ▸ h
      rw [List.head?_append_of_ne_nil _ hne] at hhead
      exact hhead
  | _ => trivial

/-- The invariant of the runs that meet `LeavesOne`. -/
structure Inv (size : ℕ) (s : PickState) : Prop where
  wf : s.disp.Wf
  count : s.disp.executorCount ≤ size
  fault : s.fault = false
  thread : ∀ e, ThreadOk (s.executors e) (s.pc e)
  lt : ∀ e, s.pc e ≠ .outside → e < size
  balance : pool size s.executors s.disp + (s.taken.map Prod.fst : List CoTaskPtr) =
    (s.submitted : Multiset CoTaskPtr)

/-! ## The threads -/

/-- The thread of executor `e` goes to `pc`, and the executor becomes `ex`, of the same runnable
queue. -/
lemma Inv.move {ex : CoExecutor} {pc : PickPc} (hs : s.Inv size) (he : e < size)
    (hq : ex.runnableQueue = (s.executors e).runnableQueue) (hok : ThreadOk ex pc) :
    ((s.setExecutor e ex).goto e pc).Inv size where
  wf := hs.wf
  count := hs.count
  fault := hs.fault
  thread := by
    intro e'
    by_cases heq : e' = e
    · subst heq
      simpa [setExecutor, goto] using hok
    · simpa [setExecutor, goto, heq] using hs.thread e'
  lt := by
    intro e' he'
    by_cases heq : e' = e
    · exact heq ▸ he
    · exact hs.lt e' (by simpa [setExecutor, goto, heq] using he')
  balance := by
    have hsame : runnables size (Function.update s.executors e ex) = runnables size s.executors :=
      runnables_update_of_eq size hq
    simpa only [pool, hsame, setExecutor, goto] using hs.balance

lemma Inv.goto {pc : PickPc} (hs : s.Inv size) (he : e < size)
    (hok : ThreadOk (s.executors e) pc) : (s.goto e pc).Inv size := by
  have h := hs.move he rfl hok
  simpa [setExecutor] using h

/-- `PopFront` on the runnable queue takes the task that `Front` returned. -/
lemma Inv.take {rest : List CoTaskPtr} (hs : s.Inv size) (he : e < size)
    (hq : (s.executors e).runnableQueue = (s.executors e).runningTask :: rest) :
    Inv size { (s.setExecutor e { s.executors e with runnableQueue := rest }).goto e
        (.resumed false) with
      taken := s.taken ++ [((s.executors e).runningTask, e)] } where
  wf := hs.wf
  count := hs.count
  fault := hs.fault
  thread := by
    intro e'
    by_cases heq : e' = e
    · subst heq
      simp [setExecutor, PickState.goto, ThreadOk]
    · simpa [setExecutor, PickState.goto, heq] using hs.thread e'
  lt := by
    intro e' he'
    by_cases heq : e' = e
    · exact heq ▸ he
    · exact hs.lt e' (by simpa [setExecutor, PickState.goto, heq] using he')
  balance := by
    have hbal := hs.balance
    have hpop : runnables size s.executors = (s.executors e).runningTask ::ₘ
        runnables size (Function.update s.executors e
          { s.executors e with runnableQueue := rest }) := runnables_pop he hq
    rw [pool, hpop, ← Multiset.singleton_add] at hbal
    simp only [setExecutor, PickState.goto, pool, List.map_append, List.map_cons, List.map_nil,
      ← hbal, ← Multiset.coe_add, Multiset.coe_singleton]
    abel

lemma Inv.call (hs : s.Inv size) (h : s.call e = some s') : s'.Inv size := by
  have hok := hs.thread e
  have hlt := hs.lt e
  unfold PickState.call at h
  cases hpc : s.pc e with
  | outside | resumed | waiting => simp [hpc] at h
  | bothRunnable last =>
    simp only [hpc, Option.some.injEq] at h
    refine h ▸ hs.goto (hlt (by simp [hpc])) ?_
    split
    next => trivial
    next hne => exact fun _ => by simpa using hne
  | bothAwoken last =>
    rw [hpc] at hok
    simp only [hpc, Option.some.injEq] at h
    refine h ▸ hs.goto (hlt (by simp [hpc])) ?_
    split
    next => trivial
    next hne =>
      split
      next hlast => exact hok hlast
      next => simpa [ThreadOk] using hne
  | onlyAwokenRunnable last =>
    simp only [hpc, Option.some.injEq] at h
    refine h ▸ hs.goto (hlt (by simp [hpc])) ?_
    split <;> trivial
  | onlyAwokenAwoken last =>
    simp only [hpc, Option.some.injEq] at h
    refine h ▸ hs.goto (hlt (by simp [hpc])) ?_
    split
    next => trivial
    next hne => simpa [ThreadOk] using hne
  | onlyRunnableRunnable last =>
    simp only [hpc, Option.some.injEq] at h
    refine h ▸ hs.goto (hlt (by simp [hpc])) ?_
    split
    next => trivial
    next hne => exact fun _ => by simpa using hne
  | onlyRunnableAwoken last =>
    rw [hpc] at hok
    simp only [hpc, Option.some.injEq] at h
    refine h ▸ hs.goto (hlt (by simp [hpc])) ?_
    split
    next hnil => exact hok (by simpa using hnil)
    next => trivial
  | front fromAwoken =>
    rw [hpc] at hok
    cases fromAwoken with
    | true =>
      obtain ⟨tk, rest, hq⟩ := List.exists_cons_of_ne_nil hok
      simp only [hpc, hq, if_true, ThreadSafeDeque.front_cons, Option.some.injEq] at h
      refine h ▸ hs.move (hlt (by simp [hpc])) rfl ?_
      simp [ThreadOk]
    | false =>
      obtain ⟨tk, rest, hq⟩ := List.exists_cons_of_ne_nil hok
      simp only [hpc, hq, Bool.false_eq_true, if_false, ThreadSafeDeque.front_cons,
        Option.some.injEq] at h
      refine h ▸ hs.move (hlt (by simp [hpc])) hq.symm ?_
      simp [ThreadOk]
  | pop fromAwoken =>
    rw [hpc] at hok
    cases fromAwoken with
    | true =>
      obtain ⟨tk, rest, hq⟩ := List.exists_cons_of_ne_nil hok
      simp only [hpc, hq, ThreadSafeDeque.popFront_cons, Option.some.injEq] at h
      exact h ▸ hs.move (hlt (by simp [hpc])) rfl trivial
    | false =>
      obtain ⟨rest, hq⟩ : ∃ rest,
          (s.executors e).runnableQueue = (s.executors e).runningTask :: rest :=
        List.head?_eq_some_iff.mp hok
      simp only [hpc, hq, ThreadSafeDeque.popFront_cons, Option.some.injEq] at h
      exact h ▸ hs.take (hlt (by simp [hpc])) hq

/-! ## Producers, wakeups and the dispatcher -/

/-- Executor `e` gets tasks at the back of its queues. -/
lemma thread_extend {ex : CoExecutor} (h : ∀ e, ThreadOk (s.executors e) (s.pc e))
    (hr : (s.executors e).runnableQueue <+: ex.runnableQueue)
    (ha : (s.executors e).awokenQueue <+: ex.awokenQueue)
    (hrun : ex.runningTask = (s.executors e).runningTask) (e' : ℕ) :
    ThreadOk (Function.update s.executors e ex e') (s.pc e') := by
  by_cases heq : e' = e
  · subst heq
    rw [Function.update_self]
    exact (h e').extend hr ha hrun
  · rw [Function.update_of_ne heq]
    exact h e'

/-- A submission. -/
lemma Inv.push (hs : s.Inv size) (he : e < size) (tks : List CoTaskPtr) :
    Inv size { s with
      executors := Function.update s.executors e
        { s.executors e with runnableQueue := (s.executors e).runnableQueue ++ tks }
      submitted := s.submitted ++ tks } where
  wf := hs.wf
  count := hs.count
  fault := hs.fault
  thread := thread_extend hs.thread (List.prefix_append _ tks) (List.prefix_refl _) rfl
  lt := hs.lt
  balance := by
    have hbal := hs.balance
    rw [pool] at hbal ⊢
    rw [runnables_append he rfl, ← Multiset.coe_add, ← hbal]
    abel

lemma Inv.awaken (hs : s.Inv size) (e : ℕ) (tk : CoTaskPtr) :
    (s.setExecutor e
      { s.executors e with awokenQueue := (s.executors e).awokenQueue.pushBack tk }).Inv size where
  wf := hs.wf
  count := hs.count
  fault := hs.fault
  thread := thread_extend hs.thread (List.prefix_refl _) (List.prefix_append _ [tk]) rfl
  lt := hs.lt
  balance := by
    have hsame : runnables size (Function.update s.executors e { s.executors e with
        awokenQueue := (s.executors e).awokenQueue.pushBack tk }) = runnables size s.executors :=
      runnables_update_of_eq size rfl
    simpa only [pool, hsame, setExecutor] using hs.balance

/-- A `GiveUpTasks(n)` for `n` between zero and the size of the queue leaves a task. -/
lemma giveUp_leaves {blocking : Bool} {d d' : DispatchState} {t t' : Executors} {idx load : ℕ}
    (hpc : d.pc = .giveUp idx load) (h : d.step size blocking t = some (d', t'))
    (hpos : 0 < (if blocking then 0 else wrapSub load d.avgLoad))
    (hlt : (if blocking then 0 else wrapSub load d.avgLoad) < (t idx).runnableQueue.length) :
    (t' idx).runnableQueue ≠ [] := by
  have hne : (t idx).runnableQueue ≠ [] := List.ne_nil_of_length_pos (by omega)
  simp only [DispatchState.step, hpc] at h
  split at h <;> (simp only [Option.some.injEq, Prod.mk.injEq] at h; rw [← h.2])
  · obtain ⟨kept, block, hq, heq, hlen⟩ :=
      (t idx).giveUpTasks_split d.stolen (if blocking then 0 else wrapSub load d.avgLoad)
    rw [if_pos hpos, hq, List.length_append] at hlen
    rw [hq, List.length_append] at hlt
    simp only [DispatchState.stealFrom, heq, Function.update_self]
    exact List.ne_nil_of_length_pos (by omega)
  · exact hne

lemma Inv.passStep {blocking : Bool} {r : DispatchState × Executors} (hs : s.Inv size)
    (hG : LeavesOne s (.passStep blocking)) (h : s.disp.step size blocking s.executors = some r) :
    Inv size { s with disp := r.1, executors := r.2 } := by
  obtain ⟨d', t'⟩ := r
  have heff := DispatchState.step_effect hs.wf h
  refine
    { wf := DispatchState.step_wf hs.wf h
      count := (DispatchState.step_executorCount h).trans_le hs.count
      fault := hs.fault
      thread := ?_
      lt := hs.lt
      balance := by
        dsimp only
        rw [heff.pool_eq hs.count]
        exact hs.balance }
  intro e
  dsimp only
  cases heff with
  | read ht ho => exact ht ▸ hs.thread e
  | steal idx load kept block hpc hidx hq ht ho =>
    by_cases heq : e = idx
    · subst heq
      have hkept : (t' e).runnableQueue = kept := by simp [ht]
      have hok := (hs.thread e).cut hq fun hcom => by
        simp only [LeavesOne, leavesOne, hpc, hcom, Bool.not_true, Bool.false_or,
          decide_eq_true_eq] at hG
        exact hkept ▸ giveUp_leaves hpc h hG.1 hG.2
      simpa [ht] using hok
    · simpa [ht, heq] using hs.thread e
  | hand idx batch hidx hne ho ht =>
    rw [ht]
    refine thread_extend hs.thread ?_ ?_ ?_ e
    exacts [List.prefix_append _ batch, List.prefix_refl _, rfl]

/-! ## Runs -/

lemma init_inv (size : ℕ) : Inv size {} where
  wf := DispatchState.start_wf 0
  count := Nat.zero_le _
  fault := rfl
  thread _ := trivial
  lt := by simp
  balance := by simp [pool, runnables, total, DispatchState.outstanding]

lemma step_inv {a : PickAct} (hs : s.Inv size) (hG : LeavesOne s a)
    (h : s.step size a = some s') : s'.Inv size := by
  unfold step at h
  rw [if_neg (by simp [hs.fault])] at h
  cases a with
  | addTask e tk =>
    obtain ⟨he, h⟩ := Option.ite_none_right_eq_some.mp h
    rw [← Option.some.inj h, CoExecutor.addTask_fst]
    exact hs.push he _
  | addTasks e tks =>
    obtain ⟨he, h⟩ := Option.ite_none_right_eq_some.mp h
    rw [← Option.some.inj h, CoExecutor.addTasks_fst]
    exact hs.push he tks
  | process e =>
    obtain ⟨⟨he, -⟩, h⟩ := Option.ite_none_right_eq_some.mp h
    exact Option.some.inj h ▸ hs.goto he trivial
  | exitLoop e =>
    simp only at h
    split at h <;> try cases h
    next hpc => exact hs.goto (hs.lt e (by simp [hpc])) trivial
  | call e => exact hs.call h
  | «return» e thrown =>
    simp only at h
    split at h <;> try cases h
    next hpc =>
      refine hs.goto (hs.lt e (by simp [hpc])) ?_
      split <;> trivial
  | wake e =>
    simp only at h
    split at h <;> try cases h
    next hpc => exact hs.goto (hs.lt e (by simp [hpc])) trivial
  | awaken e tk => exact Option.some.inj h ▸ hs.awaken e tk
  | passStart =>
    obtain ⟨hpc, h⟩ := Option.ite_none_right_eq_some.mp h
    rw [← Option.some.inj h]
    have hnil := hs.wf.outstanding_eq_nil hpc
    refine ⟨DispatchState.start_wf size, le_rfl, hs.fault, hs.thread, hs.lt, ?_⟩
    have hbal := hs.balance
    simp only [pool, hnil] at hbal
    simpa [pool, DispatchState.outstanding, DispatchState.start] using hbal
  | passStep blocking =>
    obtain ⟨r, hstep, h⟩ := Option.map_eq_some_iff.mp h
    exact h ▸ hs.passStep hG hstep

lemma reachable_inv (h : (pickSystem size).ReachableUnder LeavesOne s) : s.Inv size :=
  h.invariant (fun _ hs => hs ▸ init_inv size) fun _ _ _ _ hs hG hstep => step_inv hs hG hstep

/-- **Exactly-once start under stealing.**  In a run in which every `GiveUpTasks` leaves a task to
an executor that is committed to its runnable queue, no `Front` and no `PopFront` meets an empty
deque; the tasks in runnable queues, in the hands of the dispatcher and taken to run are those
submitted; and so a task submitted once is taken by one executor, once. -/
theorem pick_exactly_once (h : (pickSystem size).ReachableUnder LeavesOne s) :
    s.fault = false ∧
    runnables size s.executors + (s.disp.outstanding : Multiset CoTaskPtr) +
      (s.taken.map Prod.fst : List CoTaskPtr) = (s.submitted : Multiset CoTaskPtr) ∧
    (∀ tk, s.submitted.count tk ≤ 1 → (s.taken.map Prod.fst).count tk ≤ 1) := by
  have hs := reachable_inv h
  refine ⟨hs.fault, hs.balance, fun tk htk => ?_⟩
  have hcount := congrArg (Multiset.count tk) hs.balance
  simp only [Multiset.count_add, Multiset.coe_count] at hcount
  omega

/-! ## The race -/

/-- A run with a steal and one without: the executor takes the first of two tasks while the
dispatcher moves the second. -/
theorem pick_exactly_once_beside_steal :
    ∃ s, (pickSystem 2).ReachableUnder LeavesOne s ∧ s.submitted = [1, 2] ∧
      s.taken = [(1, 0), (2, 1)] ∧ s.fault = false ∧ (s.taken.map Prod.fst).count 1 ≤ 1 := by
  obtain ⟨s, hs, hp⟩ := exists_reachable_of_runUnder (G := LeavesOne) (M := pickSystem 2)
    (List.flatten [[.addTasks 0 [1, 2], .process 0], List.replicate 5 (.call 0), [.passStart],
      List.replicate 9 (.passStep false), List.replicate 2 (.call 0), [.process 1],
      List.replicate 7 (.call 1)])
    (fun s => s.submitted = [1, 2] && s.taken = [(1, 0), (2, 1)]) rfl (by decide)
  simp only [Bool.and_eq_true, decide_eq_true_eq] at hp
  obtain ⟨hfault, -, honce⟩ := pick_exactly_once hs
  exact ⟨s, hs, hp.1, hp.2, hfault, honce 1 (by simp [hp.1])⟩

/-- A `GiveUpTasks(n)` for any other `n` leaves none. -/
lemma giveUp_empties {blocking : Bool} {d d' : DispatchState} {t t' : Executors} {idx load : ℕ}
    (hpc : d.pc = .giveUp idx load) (hidx : idx < size)
    (h : d.step size blocking t = some (d', t'))
    (hn : ¬ (0 < (if blocking then 0 else wrapSub load d.avgLoad) ∧
      (if blocking then 0 else wrapSub load d.avgLoad) < (t idx).runnableQueue.length)) :
    t' idx = { t idx with runnableQueue := [] } := by
  obtain ⟨kept, block, hq, heq, hlen⟩ :=
    (t idx).giveUpTasks_split d.stolen (if blocking then 0 else wrapSub load d.avgLoad)
  simp only [DispatchState.step, hpc, if_pos hidx, Option.some.injEq, Prod.mk.injEq] at h
  have hkept : kept = [] := by
    generalize (if blocking then 0 else wrapSub load d.avgLoad) = m at hn hlen
    rw [hq, List.length_append] at hn hlen
    refine List.length_eq_zero_iff.mp ?_
    split at hlen <;> omega
  rw [← h.2, ← hkept]
  simp [DispatchState.stealFrom, heq]

/-- **The condition is tight.**  After any steal that violates it, a few more calls, and at most one
wakeup, bring the executor to a call on its empty runnable queue. -/
theorem exists_fault_of_steal {blocking : Bool} (h : (pickSystem size).ReachableUnder LeavesOne s)
    (hG : ¬ LeavesOne s (.passStep blocking))
    (hstep : s.step size (.passStep blocking) = some s') :
    ∃ as, ((pickSystem size).runUnder (fun _ _ => True) s' as).map fault = some true := by
  have hs := reachable_inv h
  unfold step at hstep
  rw [if_neg (by simp [hs.fault])] at hstep
  obtain ⟨⟨d', t'⟩, hd, rfl⟩ := Option.map_eq_some_iff.mp hstep
  have hok := hs.wf.pcOk
  simp only [LeavesOne, leavesOne] at hG
  split at hG <;> try simp at hG
  next idx load hpc =>
    simp only [DispatchState.PcOk, hpc] at hok
    obtain ⟨hcom, hn⟩ := hG
    have ht := giveUp_empties hpc (hok.1.trans_le hs.count) hd fun hlt => (hn hlt.1).not_gt hlt.2
    have hfault := hs.fault
    -- the calls of the thread up to the one that meets the empty queue
    unfold committed at hcom
    cases hpc' : s.pc idx with
    | bothAwoken last =>
      obtain rfl : last = true := by simpa [hpc'] using hcom
      refine ⟨[.awaken idx nullptr, .call idx, .call idx], ?_⟩
      simp [runUnder, pickSystem, step, call, goto, setExecutor, hpc', ht, hfault,
        ThreadSafeDeque.pushBack, ThreadSafeDeque.front]
    | onlyRunnableAwoken last =>
      have hnil : (s.executors idx).awokenQueue = [] := by simpa [hpc'] using hcom
      refine ⟨[.call idx, .call idx], ?_⟩
      simp [runUnder, pickSystem, step, call, goto, hpc', ht, hnil, hfault, ThreadSafeDeque.front]
    | front fromAwoken =>
      obtain rfl : fromAwoken = false := by simpa [hpc'] using hcom
      refine ⟨[.call idx], ?_⟩
      simp [runUnder, pickSystem, step, call, hpc', ht, hfault, ThreadSafeDeque.front]
    | pop fromAwoken =>
      obtain rfl : fromAwoken = false := by simpa [hpc'] using hcom
      refine ⟨[.call idx], ?_⟩
      simp [runUnder, pickSystem, step, call, hpc', ht, hfault, ThreadSafeDeque.popFront]
    | _ => simp [hpc'] at hcom

/-- The only task of an executor is stolen when its thread is about to read it, and `Front` meets
an empty deque.  In another run the task is stolen after it was read: two executors run it, and
`PopFront` drops the task that was added since. -/
theorem steal_breaks_pick :
    (∃ s, (pickSystem 2).Reachable s ∧ s.submitted = [1] ∧ s.fault = true) ∧
    (∃ s, (pickSystem 2).Reachable s ∧ s.submitted = [1, 2] ∧ s.taken = [(1, 0), (1, 1)] ∧
      (s.executors 0).runnableQueue = [] ∧ (s.executors 1).runnableQueue = [] ∧
      s.disp.outstanding = []) := by
  constructor
  · obtain ⟨s, hs, hp⟩ := exists_reachable_of_runUnder (G := fun _ _ => True) (M := pickSystem 2)
      (List.flatten [[.addTask 0 1, .process 0], List.replicate 5 (.call 0), [.passStart],
        List.replicate 7 (.passStep false), [.call 0]])
      (fun s => s.submitted = [1] && s.fault) rfl (by decide)
    simp only [Bool.and_eq_true, decide_eq_true_eq] at hp
    exact ⟨s, hs, hp.1, hp.2⟩
  · obtain ⟨s, hs, hp⟩ := exists_reachable_of_runUnder (G := fun _ _ => True) (M := pickSystem 2)
      (List.flatten [[.addTask 0 1, .process 0], List.replicate 6 (.call 0), [.passStart],
        List.replicate 11 (.passStep false), [.addTask 0 2, .call 0, .process 1],
        List.replicate 7 (.call 1)])
      (fun s => s.submitted = [1, 2] && s.taken = [(1, 0), (1, 1)] &&
        (s.executors 0).runnableQueue = [] && (s.executors 1).runnableQueue = [] &&
        s.disp.outstanding = [])
      rfl (by decide)
    simp only [Bool.and_eq_true, decide_eq_true_eq] at hp
    exact ⟨s, hs, hp.1.1.1.1, hp.1.1.1.2, hp.1.1.2, hp.1.2, hp.2⟩

end PickState

end CoroutineCpp
