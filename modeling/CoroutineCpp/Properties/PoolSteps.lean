import CoroutineCpp.Model.ThreadPool

/-!
# What a step of the thread pool can do

`Effect` lists the ways a step changes a pool, each with what the step has found out before:
most steps only move one thread (`WorkerMove`, `CallerMove`), the others take or give back a lock,
push or pop, notify, or set a flag.  The invariants of the pool are proved of effects.
-/

namespace CoroutineCpp

open Framework TransitionSystem

namespace ThreadPool

/-- The steps of a worker that change nothing but where it stands. -/
inductive WorkerMove (s : ThreadPool) : WorkerPc → WorkerPc → Prop
  | enter (hstarted : s.started = true) (hrun : s.isStopping = false) : WorkerMove s .loop .acquire
  | leave (h : s.started = false ∨ s.isStopping = true) : WorkerMove s .loop .done
  | found (h : s.tasks ≠ [] ∨ s.isStopping = true) : WorkerMove s .evaluate .release
  | missed (hnil : s.tasks = []) (hrun : s.isStopping = false) : WorkerMove s .evaluate .block
  | woken (notified : Bool) : WorkerMove s (.blocked notified) .acquire
  | again (hnil : s.tasks = []) : WorkerMove s .test .loop
  | ready (hne : s.tasks ≠ []) : WorkerMove s .test .lockQueue
  | front {fn : TaskF} (h : s.tasks.head? = some fn) : WorkerMove s .front (.pop fn)
  | ran (fn : TaskF) : WorkerMove s (.run fn) .loop

/-- The steps of a caller that change nothing but where it stands. -/
inductive CallerMove (s : ThreadPool) : CallerPc → CallerPc → Prop
  | beginScheduler (task : TaskF) : CallerMove s .idle (.schedulerTest task)
  | beginStart : CallerMove s .idle .startTest
  | beginStop (join : Bool) : CallerMove s .idle (.stopTest join)
  | accept {task : TaskF} (h : s.stopped = false) (hrun : s.isStopping = false) :
      CallerMove s (.schedulerTest task) (.push task)
  | reject {task : TaskF} (h : s.stopped = true ∨ s.isStopping = true) :
      CallerMove s (.schedulerTest task) .idle
  | skip {k : Notifier} (hnil : s.tasks = []) : CallerMove s (.notifyTest k) (afterNotify k)
  | notify {k : Notifier} (hne : s.tasks ≠ []) : CallerMove s (.notifyTest k) (.notifyAcquire k)
  | start (h : s.started = false) (hstopped : s.stopped = true) :
      CallerMove s .startTest .startSetStarted
  | noStart (h : s.started = true ∨ s.stopped = false) : CallerMove s .startTest .idle
  | spawned : CallerMove s (.spawn 0) .idle
  | stop {join : Bool} (h : s.stopped = false) (hstarted : s.started = true) :
      CallerMove s (.stopTest join) (.stopSet join)
  | noStop {join : Bool} (h : s.stopped = true ∨ s.started = false) :
      CallerMove s (.stopTest join) .idle
  | joined {i : ℕ} (h : s.threads ≤ i) : CallerMove s (.join i) .idle
  | skipJoin {i : ℕ} (h : s.joinable i = false) : CallerMove s (.join i) (.join (i + 1))
  | detached {i : ℕ} (h : s.threads ≤ i) : CallerMove s (.detach i) .idle

/-- One step of the pool, with the label `a`. -/
inductive Effect (s : ThreadPool) (a : PoolAct) : ThreadPool → Prop
  | workerMove {w : ℕ} {pc : WorkerPc} (h : WorkerMove s (s.workers w) pc) :
      Effect s a (s.setWorker w pc)
  | workerTakes {w : ℕ} (hpc : s.workers w = .acquire) (hfree : s.mtx = none) :
      Effect s a { s.setWorker w .evaluate with mtx := some (.worker w) }
  | workerBlocks {w : ℕ} (hpc : s.workers w = .block) :
      Effect s a { s.setWorker w (.blocked false) with mtx := none }
  | workerGives {w : ℕ} (hpc : s.workers w = .release) :
      Effect s a { s.setWorker w .test with mtx := none }
  | lockQueue {w : ℕ} (hpc : s.workers w = .lockQueue) (hfree : s.queueLock = none) :
      Effect s a { s.setWorker w .front with queueLock := some w }
  | pop {w : ℕ} {fn fn' : TaskF} {rest : List TaskF} (ha : a = .worker w)
      (hpc : s.workers w = .pop fn) (hq : s.tasks = fn' :: rest) :
      Effect s a { s.setWorker w (.unlockQueue fn) with tasks := rest, taken := s.taken ++ [fn] }
  | unlockQueue {w : ℕ} {fn : TaskF} (hpc : s.workers w = .unlockQueue fn) :
      Effect s a { s.setWorker w (.run fn) with queueLock := none }
  | callerMove {c : ℕ} {pc : CallerPc} (h : CallerMove s (s.callers c) pc) :
      Effect s a (s.setCaller c pc)
  | push {c : ℕ} {task : TaskF} (hpc : s.callers c = .push task) (hfree : s.queueLock = none) :
      Effect s a { s.setCaller c (.notifyTest .schedulerTask) with
        tasks := s.tasks ++ [task], accepted := s.accepted ++ [task] }
  | callerTakes {c : ℕ} {k : Notifier} (hpc : s.callers c = .notifyAcquire k)
      (hfree : s.mtx = none) :
      Effect s a { s.setCaller c (.notifyAll k) with mtx := some (.caller c) }
  | notifyAll {c : ℕ} {k : Notifier} (hpc : s.callers c = .notifyAll k) :
      Effect s a { s.setCaller c (.notifyRelease k) with
        workers := fun w => notified (s.workers w) }
  | callerGives {c : ℕ} {k : Notifier} (hpc : s.callers c = .notifyRelease k) :
      Effect s a { s.setCaller c (afterNotify k) with mtx := none }
  | setStarted {c : ℕ} (hpc : s.callers c = .startSetStarted) :
      Effect s a { s.setCaller c .startSetStopped with started := true }
  | setStopped {c : ℕ} (hpc : s.callers c = .startSetStopped) :
      Effect s a { s.setCaller c (.spawn s.threadCount) with stopped := false }
  | spawn {c left : ℕ} (hpc : s.callers c = .spawn (left + 1)) :
      Effect s a { (s.setCaller c (.spawn left)).setWorker s.threads .loop with
        threads := s.threads + 1, joinable := Function.update s.joinable s.threads true }
  | setStopping {c : ℕ} {join : Bool} (hpc : s.callers c = .stopSet join) :
      Effect s a { s.setCaller c (.notifyTest (.stop join)) with isStopping := true }
  | join {c i : ℕ} (hpc : s.callers c = .join i) (hi : i < s.threads)
      (hjoinable : s.joinable i = true) (hdone : s.workers i = .done) :
      Effect s a { s.setCaller c (.join (i + 1)) with
        joinable := Function.update s.joinable i false }
  | detach {c i : ℕ} (hpc : s.callers c = .detach i) (hi : i < s.threads)
      (hjoinable : s.joinable i = true) :
      Effect s a { s.setCaller c (.detach (i + 1)) with
        joinable := Function.update s.joinable i false }
  | emptyDeque {w : ℕ} (hpc : s.workers w = .front ∨ ∃ fn, s.workers w = .pop fn)
      (hnil : s.tasks = []) : Effect s a { s with fault := some .emptyDeque }
  | notJoinable : Effect s a { s with fault := some .notJoinable }

variable {s s' : ThreadPool} {w c : ℕ}

lemma workerStep_effect (h : s.workerStep w = some s') : Effect s (.worker w) s' := by
  unfold workerStep at h
  cases hpc : s.workers w with
  | unborn | done => simp [hpc] at h
  | loop =>
    simp only [hpc, Option.some.injEq] at h
    refine h ▸ .workerMove (hpc ▸ ?_)
    split
    next hrun =>
      simp only [Bool.and_eq_true, Bool.not_eq_true'] at hrun
      exact .enter hrun.1 hrun.2
    next hrun => exact .leave (by simpa [Classical.or_iff_not_imp_left] using hrun)
  | acquire =>
    simp only [hpc] at h
    obtain ⟨hfree, h⟩ := Option.ite_none_right_eq_some.mp h
    exact Option.some.inj h ▸ .workerTakes hpc hfree
  | evaluate =>
    simp only [hpc] at h
    obtain ⟨-, h⟩ := Option.ite_none_right_eq_some.mp h
    refine Option.some.inj h ▸ .workerMove (hpc ▸ ?_)
    split
    next hpred => exact .found (by simpa using hpred)
    next hpred =>
      simp only [Bool.or_eq_true, Bool.not_eq_true', not_or, Bool.not_eq_false,
        List.isEmpty_iff, Bool.not_eq_true] at hpred
      exact .missed hpred.1 hpred.2
  | block =>
    simp only [hpc, Option.some.injEq] at h
    exact h ▸ .workerBlocks hpc
  | blocked notified =>
    simp only [hpc] at h
    obtain ⟨-, h⟩ := Option.ite_none_right_eq_some.mp h
    exact Option.some.inj h ▸ .workerMove (hpc ▸ .woken notified)
  | release =>
    simp only [hpc, Option.some.injEq] at h
    exact h ▸ .workerGives hpc
  | test =>
    simp only [hpc] at h
    obtain ⟨-, h⟩ := Option.ite_none_right_eq_some.mp h
    refine Option.some.inj h ▸ .workerMove (hpc ▸ ?_)
    split
    next hnil => exact .again (by simpa using hnil)
    next hne => exact .ready (by simpa using hne)
  | lockQueue =>
    simp only [hpc] at h
    obtain ⟨hfree, h⟩ := Option.ite_none_right_eq_some.mp h
    exact Option.some.inj h ▸ .lockQueue hpc hfree
  | front =>
    simp only [hpc] at h
    cases hq : s.tasks with
    | nil =>
      have hfront : s.tasks.front = none := by rw [hq]; rfl
      simp only [hfront, Option.some.injEq] at h
      exact h ▸ .emptyDeque (.inl hpc) hq
    | cons fn rest =>
      have hfront : s.tasks.front = some fn := by rw [hq]; rfl
      simp only [hfront, Option.some.injEq] at h
      exact h ▸ .workerMove (hpc ▸ .front (by simp [hq]))
  | pop fn =>
    simp only [hpc] at h
    cases hq : s.tasks with
    | nil =>
      have hpop : s.tasks.popFront = none := by rw [hq]; rfl
      simp only [hpop, Option.some.injEq] at h
      exact h ▸ .emptyDeque (.inr ⟨fn, hpc⟩) hq
    | cons fn' rest =>
      have hpop : s.tasks.popFront = some rest := by rw [hq]; rfl
      simp only [hpop, Option.some.injEq] at h
      exact h ▸ .pop rfl hpc hq
  | unlockQueue fn =>
    simp only [hpc, Option.some.injEq] at h
    exact h ▸ .unlockQueue hpc
  | run fn =>
    simp only [hpc, Option.some.injEq] at h
    exact h ▸ .workerMove (hpc ▸ .ran fn)

lemma callerStep_effect (h : s.callerStep c = some s') : Effect s (.caller c) s' := by
  unfold callerStep at h
  cases hpc : s.callers c with
  | idle => simp [hpc] at h
  | schedulerTest task =>
    simp only [hpc, Option.some.injEq] at h
    refine h ▸ .callerMove (hpc ▸ ?_)
    split
    next hrun =>
      simp only [Bool.and_eq_true, Bool.not_eq_true'] at hrun
      exact .accept hrun.1 hrun.2
    next hrun => exact .reject (by simpa [Classical.or_iff_not_imp_left] using hrun)
  | push task =>
    simp only [hpc] at h
    obtain ⟨hfree, h⟩ := Option.ite_none_right_eq_some.mp h
    exact Option.some.inj h ▸ .push hpc hfree
  | notifyTest k =>
    simp only [hpc] at h
    obtain ⟨-, h⟩ := Option.ite_none_right_eq_some.mp h
    refine Option.some.inj h ▸ .callerMove (hpc ▸ ?_)
    split
    next hnil => exact .skip (by simpa using hnil)
    next hne => exact .notify (by simpa using hne)
  | notifyAcquire k =>
    simp only [hpc] at h
    obtain ⟨hfree, h⟩ := Option.ite_none_right_eq_some.mp h
    exact Option.some.inj h ▸ .callerTakes hpc hfree
  | notifyAll k =>
    simp only [hpc, Option.some.injEq] at h
    exact h ▸ .notifyAll hpc
  | notifyRelease k =>
    simp only [hpc, Option.some.injEq] at h
    exact h ▸ .callerGives hpc
  | startTest =>
    simp only [hpc, Option.some.injEq] at h
    refine h ▸ .callerMove (hpc ▸ ?_)
    split
    next hstart =>
      simp only [Bool.and_eq_true, Bool.not_eq_true'] at hstart
      exact .start hstart.1 hstart.2
    next hstart => exact .noStart (by simpa [Classical.or_iff_not_imp_left] using hstart)
  | startSetStarted =>
    simp only [hpc, Option.some.injEq] at h
    exact h ▸ .setStarted hpc
  | startSetStopped =>
    simp only [hpc, Option.some.injEq] at h
    exact h ▸ .setStopped hpc
  | spawn left =>
    cases left with
    | zero =>
      simp only [hpc, Option.some.injEq] at h
      exact h ▸ .callerMove (hpc ▸ .spawned)
    | succ left =>
      simp only [hpc, Option.some.injEq] at h
      exact h ▸ .spawn hpc
  | stopTest join =>
    simp only [hpc, Option.some.injEq] at h
    refine h ▸ .callerMove (hpc ▸ ?_)
    split
    next hstop =>
      simp only [Bool.and_eq_true, Bool.not_eq_true'] at hstop
      exact .stop hstop.1 hstop.2
    next hstop => exact .noStop (by simpa [Classical.or_iff_not_imp_left] using hstop)
  | stopSet join =>
    simp only [hpc, Option.some.injEq] at h
    exact h ▸ .setStopping hpc
  | join i =>
    simp only [hpc] at h
    split at h
    next hi => exact Option.some.inj h ▸ .callerMove (hpc ▸ .joined hi)
    next hi =>
      split at h
      next hj => exact Option.some.inj h ▸ .callerMove (hpc ▸ .skipJoin (by simpa using hj))
      next hj =>
        obtain ⟨hdone, h⟩ := Option.ite_none_right_eq_some.mp h
        exact Option.some.inj h ▸ .join hpc (by omega) (by simpa using hj) hdone
  | detach i =>
    simp only [hpc] at h
    split at h
    next hi => exact Option.some.inj h ▸ .callerMove (hpc ▸ .detached hi)
    next hi =>
      split at h
      next hj => exact Option.some.inj h ▸ .detach hpc (by omega) hj
      next => exact Option.some.inj h ▸ .notJoinable

/-- **Every step is an effect.** -/
theorem step_effect {a : PoolAct} (h : s.step a = some s') : Effect s a s' := by
  obtain ⟨-, h⟩ := Option.ite_none_left_eq_some.mp h
  cases a with
  | schedulerTask c task =>
    obtain ⟨hpc, h⟩ := Option.ite_none_right_eq_some.mp h
    exact Option.some.inj h ▸ .callerMove (hpc ▸ .beginScheduler task)
  | start c =>
    obtain ⟨hpc, h⟩ := Option.ite_none_right_eq_some.mp h
    exact Option.some.inj h ▸ .callerMove (hpc ▸ .beginStart)
  | stop c join =>
    obtain ⟨hpc, h⟩ := Option.ite_none_right_eq_some.mp h
    exact Option.some.inj h ▸ .callerMove (hpc ▸ .beginStop join)
  | caller c => exact callerStep_effect h
  | worker w => exact workerStep_effect h
  | spurious w =>
    simp only at h
    split at h <;> try cases h
    next notified hpc => exact .workerMove (hpc ▸ .woken notified)

/-- What holds initially and is preserved by every effect, holds of every run. -/
theorem effect_invariant {G : ThreadPool → PoolAct → Prop} {I : ThreadPool → Prop}
    (hinit : ∀ n, I { threadCount := n })
    (heff : ∀ s a s', I s → G s a → Effect s a s' → I s') (h : poolSystem.ReachableUnder G s) :
    I s := by
  refine h.invariant ?_ fun s a s' _ hs hG hstep => heff s a s' hs hG (step_effect hstep)
  rintro s ⟨n, rfl⟩
  exact hinit n

end ThreadPool

end CoroutineCpp
