import CoroutineCpp.Model.PoolCalls
import CoroutineCpp.Properties.PoolStop
import Mathlib.Data.List.Induction
import Mathlib.Data.List.TakeWhile

/-!
# When the life cycle of a pool is safe

For any sequence of calls on a pool of `n` threads followed by its destruction.  A pool is in one
of three phases (`Phase`), and `calls_eq` says which one each sequence leads to.  The life cycle is
safe exactly when the owner starts the pool at most to stop it again, and joins in each later
`Stop` (`lifetime_safe_iff`): `DetachAllThreads` detaches without the test for `joinable()` that
`WaitForTaskDone` makes, and the destructor leaves the threads of a pool joinable that was never
stopped.

`solo_calls` connects the calls to the steps of the pool: whatever the workers do meanwhile, a run
with one caller goes through the functions of `Model/PoolCalls.lean`.
-/

namespace CoroutineCpp

open Framework TransitionSystem

/-! ## The `Stop` calls that find the pool started -/

/-- The argument of a `Stop`. -/
def PoolCall.stopArg : PoolCall → Option Bool
  | .stop join => some join
  | _ => none

/-- The arguments of the `Stop` calls after the first `Start`, in order. -/
def stopsAfterStart (cs : List PoolCall) : List Bool :=
  (cs.dropWhile fun c => c ≠ .start).filterMap PoolCall.stopArg

lemma dropWhile_start_eq_nil_iff {cs : List PoolCall} :
    (cs.dropWhile fun c => c ≠ .start) = [] ↔ .start ∉ cs := by
  rw [List.dropWhile_eq_nil_iff]
  constructor
  · intro hall hmem
    simpa using hall _ hmem
  · intro hnot c hc
    have hne : c ≠ .start := by
      rintro rfl
      exact hnot hc
    simpa using hne

lemma stopsAfterStart_of_notMem {cs : List PoolCall} (h : .start ∉ cs) :
    stopsAfterStart cs = [] := by
  rw [stopsAfterStart, dropWhile_start_eq_nil_iff.mpr h, List.filterMap_nil]

lemma stopsAfterStart_concat (cs : List PoolCall) (c : PoolCall) :
    stopsAfterStart (cs ++ [c]) =
      stopsAfterStart cs ++ if .start ∈ cs then c.stopArg.toList else [] := by
  by_cases h : .start ∈ cs
  · have hne := mt dropWhile_start_eq_nil_iff.mp (not_not.mpr h)
    rw [if_pos h, stopsAfterStart, List.dropWhile_append, if_neg (by simpa using hne),
      List.filterMap_append]
    cases c <;> simp [stopsAfterStart, PoolCall.stopArg]
  · have hnil := dropWhile_start_eq_nil_iff.mpr h
    rw [if_neg h, stopsAfterStart_of_notMem h, stopsAfterStart, List.dropWhile_append,
      if_pos (by simpa using hnil)]
    cases c <;> simp [PoolCall.stopArg]

namespace ThreadPoolExecutor

/-! ## The phases of a pool -/

/-- How far the life of a pool has come. -/
inductive Phase
  | fresh
  | running
  | stopping
  deriving DecidableEq

/-- The pools of `n` threads in a given phase. -/
inductive At (n : ℕ) : Phase → ThreadPoolExecutor → Prop
  | fresh (accepted : List TaskF) : At n .fresh { threadCount := n, accepted := accepted }
  | running (accepted : List TaskF) : At n .running
      { threadCount := n, stopped := false, started := true
        threads := List.replicate n true, accepted := accepted }
  | stopping (accepted : List TaskF) : At n .stopping
      { threadCount := n, stopped := false, started := true, isStopping := true
        threads := List.replicate n false, accepted := accepted }

/-- The phase a sequence of calls leads to. -/
def phaseOf (cs : List PoolCall) : Phase :=
  if .start ∉ cs then .fresh else if stopsAfterStart cs = [] then .running else .stopping

variable {n : ℕ} {φ : Phase} {p p' : ThreadPoolExecutor} {join : Bool}

lemma detachAllThreads_joinable (n : ℕ) :
    detachAllThreads (List.replicate n true) = .ok (List.replicate n false) := by
  induction n with
  | zero => rfl
  | succ n ih => simp [List.replicate_succ, detachAllThreads, ih, Except.map]

lemma waitForTaskDone_replicate (n : ℕ) (b : Bool) :
    waitForTaskDone (List.replicate n b) = List.replicate n false := by
  induction n with
  | zero => rfl
  | succ n ih => cases b <;> simp [List.replicate_succ, waitForTaskDone, ih]

lemma At.schedulerTask (h : At n φ p) (task : TaskF) : At n φ (p.schedulerTask task) := by
  cases h with
  | fresh accepted => exact .fresh accepted
  | running accepted => exact .running (accepted ++ [task])
  | stopping accepted => exact .stopping accepted

lemma At.start_fresh (h : At n .fresh p) : At n .running p.start := by
  cases h with
  | fresh accepted => exact .running accepted

lemma At.start_eq (h : At n φ p) (hφ : φ ≠ .fresh) : p.start = p := by
  cases h with
  | fresh => exact absurd rfl hφ
  | running | stopping => rfl

lemma At.stop_fresh (h : At n .fresh p) : p.stop join = .ok p := by
  cases h
  rfl

/-- The first `Stop` of a started pool releases all threads, either way. -/
lemma At.stop_running (h : At n .running p) : ∃ p', p.stop join = .ok p' ∧ At n .stopping p' := by
  cases h with
  | running accepted =>
    refine ⟨_, ?_, .stopping accepted⟩
    cases join <;>
      simp [stop, detachAllThreads_joinable, waitForTaskDone_replicate, Except.map]

/-- A repeated `Stop` changes nothing, or throws: it throws when it is to detach and there is a
thread. -/
lemma At.stop_stopping (h : At n .stopping p) :
    p.stop join = if n = 0 ∨ join = true then .ok p else .error .systemError := by
  cases h with
  | stopping accepted =>
    cases join with
    | true => simp [stop, waitForTaskDone_replicate]
    | false => cases n <;> simp [stop, List.replicate_succ, detachAllThreads, Except.map]

/-- The destructor terminates the process exactly on a running pool that has threads. -/
lemma At.destroy (h : At n φ p) :
    p.destroy = if n ≠ 0 ∧ φ = .running then .error .terminate else .ok () := by
  cases h with
  | fresh => simp [ThreadPoolExecutor.destroy, clearThreads, Except.bind, Except.map]
  | running =>
    cases n <;> simp [ThreadPoolExecutor.destroy, clearThreads, Except.bind, Except.map]
  | stopping =>
    cases n <;> simp [ThreadPoolExecutor.destroy, clearThreads, Except.bind, Except.map]

/-! ## Every sequence of calls -/

/-- Each `Stop` after the first that finds the pool started joins. -/
def JoinsAgain (cs : List PoolCall) : Prop := ∀ join ∈ (stopsAfterStart cs).tail, join = true

lemma phaseOf_schedulerTask (cs : List PoolCall) (task : TaskF) :
    stopsAfterStart (cs ++ [.schedulerTask task]) = stopsAfterStart cs ∧
      phaseOf (cs ++ [.schedulerTask task]) = phaseOf cs := by
  have hstops : stopsAfterStart (cs ++ [.schedulerTask task]) = stopsAfterStart cs := by
    simp [stopsAfterStart_concat, PoolCall.stopArg]
  exact ⟨hstops, by simp [phaseOf, hstops]⟩

lemma phaseOf_start (cs : List PoolCall) :
    stopsAfterStart (cs ++ [.start]) = stopsAfterStart cs ∧
      phaseOf (cs ++ [.start]) = if phaseOf cs = .fresh then .running else phaseOf cs := by
  have hstops : stopsAfterStart (cs ++ [.start]) = stopsAfterStart cs := by
    simp [stopsAfterStart_concat, PoolCall.stopArg]
  refine ⟨hstops, ?_⟩
  by_cases hstart : .start ∈ cs
  · by_cases hnil : stopsAfterStart cs = [] <;> simp [phaseOf, hstops, hstart, hnil]
  · simp [phaseOf, hstops, hstart, stopsAfterStart_of_notMem hstart]

lemma phaseOf_stop (cs : List PoolCall) (join : Bool) :
    phaseOf (cs ++ [.stop join]) = if phaseOf cs = .fresh then .fresh else .stopping := by
  by_cases hstart : .start ∈ cs
  · by_cases hnil : stopsAfterStart cs = [] <;>
      simp [phaseOf, stopsAfterStart_concat, hstart, hnil, PoolCall.stopArg]
  · simp [phaseOf, hstart]

/-- What a `Stop` adds to the arguments that have to be `true`. -/
lemma joinsAgain_stop (cs : List PoolCall) (join : Bool) :
    JoinsAgain (cs ++ [.stop join]) ↔
      JoinsAgain cs ∧ (phaseOf cs = .stopping → join = true) := by
  by_cases hstart : .start ∈ cs
  · cases hstops : stopsAfterStart cs with
    | nil =>
      simp [JoinsAgain, stopsAfterStart_concat, phaseOf, hstart, hstops, PoolCall.stopArg]
    | cons j rest =>
      simp [JoinsAgain, stopsAfterStart_concat, phaseOf, hstart, hstops, PoolCall.stopArg,
        or_imp, forall_and]
  · simp [JoinsAgain, stopsAfterStart_concat, phaseOf, hstart]

/-- **Where a sequence of calls leads**: to the phase of the sequence or, where a repeated `Stop`
detaches threads, to an exception. -/
theorem calls_eq (hp : At n .fresh p) (cs : List PoolCall) :
    (n = 0 ∨ JoinsAgain cs → ∃ p', p.calls cs = .ok p' ∧ At n (phaseOf cs) p') ∧
      (¬(n = 0 ∨ JoinsAgain cs) → p.calls cs = .error .systemError) := by
  induction cs using List.reverseRecOn with
  | nil =>
    refine ⟨fun _ => ⟨p, rfl, by simpa [phaseOf] using hp⟩, fun h => absurd (.inr ?_) h⟩
    simp [JoinsAgain, stopsAfterStart]
  | append_singleton cs c ih =>
    rw [calls_concat]
    by_cases hgood : n = 0 ∨ JoinsAgain cs
    · obtain ⟨p', hcalls, hat⟩ := ih.1 hgood
      rw [hcalls]
      show (_ → ∃ p'', p'.call c = _ ∧ _) ∧ (_ → p'.call c = _)
      cases c with
      | schedulerTask task =>
        obtain ⟨hstops, hphase⟩ := phaseOf_schedulerTask cs task
        rw [JoinsAgain, hstops, hphase]
        exact ⟨fun _ => ⟨_, rfl, hat.schedulerTask task⟩, fun h => absurd hgood h⟩
      | start =>
        obtain ⟨hstops, hphase⟩ := phaseOf_start cs
        rw [JoinsAgain, hstops, hphase]
        refine ⟨fun _ => ⟨_, rfl, ?_⟩, fun h => absurd hgood h⟩
        split
        next hfresh => exact (hfresh ▸ hat).start_fresh
        next hφ => exact (hat.start_eq hφ).symm ▸ hat
      | stop join =>
        rw [joinsAgain_stop, phaseOf_stop]
        show (_ → ∃ p'', p'.stop join = _ ∧ _) ∧ (_ → p'.stop join = _)
        cases hφ : phaseOf cs with
        | fresh =>
          rw [hφ] at hat
          simpa [hat.stop_fresh, hat, ← Classical.or_iff_not_imp_left] using hgood
        | running =>
          rw [hφ] at hat
          have hstop : ∃ p'', p'.stop join = .ok p'' ∧ At n .stopping p'' := hat.stop_running
          simpa [hgood] using hstop
        | stopping =>
          rw [hφ] at hat
          rw [hat.stop_stopping]
          by_cases hjoin : n = 0 ∨ join = true
          · rw [if_pos hjoin]
            refine ⟨fun _ => ⟨p', rfl, hat⟩, fun h => absurd ?_ h⟩
            tauto
          · rw [if_neg hjoin]
            refine ⟨fun h => absurd ?_ hjoin, fun _ => rfl⟩
            tauto
    · rw [ih.2 hgood]
      refine ⟨fun h => absurd ?_ hgood, fun _ => rfl⟩
      refine h.imp_right fun hjoins join hjoin => hjoins join ?_
      rw [stopsAfterStart_concat]
      cases hstops : stopsAfterStart cs with
      | nil => simp [hstops] at hjoin
      | cons j rest => simpa [hstops] using .inl (by simpa [hstops] using hjoin)

/-- The life cycle is safe: no call throws, the destructor does not terminate the process, and a
`Stop` after an effective one leaves the threads as they are. -/
structure SafeLifetime (p : ThreadPoolExecutor) (cs : List PoolCall) : Prop where
  returns : p.lifetime cs = .ok ()
  repeated : ∀ before join after p₁ p₂, cs = before ++ .stop join :: after →
    stopsAfterStart before ≠ [] → p.calls before = .ok p₁ → p₁.stop join = .ok p₂ →
    p₂.threads = p₁.threads

lemma construct_fresh (nThreads hardwareConcurrency : ℕ) :
    At (construct nThreads hardwareConcurrency).threadCount .fresh
      (construct nThreads hardwareConcurrency) := .fresh []

/-- A `Stop` that is not the first to find the pool started has no effect on the threads. -/
lemma repeated_stop (hp : At n .fresh p) {before : List PoolCall} {p₁ p₂ : ThreadPoolExecutor}
    (hstops : stopsAfterStart before ≠ []) (hbefore : p.calls before = .ok p₁)
    (hstop : p₁.stop join = .ok p₂) : p₂.threads = p₁.threads := by
  have hgood : n = 0 ∨ JoinsAgain before := by
    by_contra hbad
    rw [(calls_eq hp before).2 hbad] at hbefore
    cases hbefore
  obtain ⟨p', hcalls, hat⟩ := (calls_eq hp before).1 hgood
  obtain rfl : p' = p₁ := Except.ok.inj (hcalls.symm.trans hbefore)
  have hstart : .start ∈ before := by
    by_contra hnot
    exact hstops (stopsAfterStart_of_notMem hnot)
  rw [phaseOf, if_neg (not_not.mpr hstart), if_neg hstops] at hat
  rw [hat.stop_stopping] at hstop
  split at hstop
  · rw [Except.ok.inj hstop]
  · cases hstop

lemma phaseOf_eq_running_iff {cs : List PoolCall} :
    phaseOf cs = .running ↔ .start ∈ cs ∧ stopsAfterStart cs = [] := by
  by_cases hstart : .start ∈ cs <;> by_cases hnil : stopsAfterStart cs = [] <;>
    simp [phaseOf, hstart, hnil]

/-- **When the life cycle of a pool is safe.** The pool has no threads, or is never started, or
some `Stop` comes after the first `Start` and every later `Stop` joins. -/
theorem lifetime_safe_iff (nThreads hardwareConcurrency : ℕ) (cs : List PoolCall) :
    SafeLifetime (construct nThreads hardwareConcurrency) cs ↔
      (construct nThreads hardwareConcurrency).threadCount = 0 ∨ .start ∉ cs ∨
        ∃ join rest, stopsAfterStart cs = join :: rest ∧ ∀ join ∈ rest, join = true := by
  have hp := construct_fresh nThreads hardwareConcurrency
  generalize (construct nThreads hardwareConcurrency).threadCount = n at hp ⊢
  generalize construct nThreads hardwareConcurrency = p at hp ⊢
  have hsafe : SafeLifetime p cs ↔ p.lifetime cs = .ok () :=
    ⟨fun h => h.returns, fun h => ⟨h, fun _ _ _ _ _ _ hstops => repeated_stop hp hstops⟩⟩
  have hlife : p.lifetime cs = .ok () ↔
      (n = 0 ∨ JoinsAgain cs) ∧ ¬(n ≠ 0 ∧ phaseOf cs = .running) := by
    by_cases hgood : n = 0 ∨ JoinsAgain cs
    · obtain ⟨p', hcalls, hat⟩ := (calls_eq hp cs).1 hgood
      have hdestroy : p.lifetime cs = p'.destroy := by rw [lifetime, hcalls]; rfl
      rw [hdestroy, hat.destroy]
      split <;> simp_all
    · have hthrow : p.lifetime cs = .error .systemError := by
        rw [lifetime, (calls_eq hp cs).2 hgood]
        rfl
      simp [hthrow, hgood]
  rw [hsafe, hlife, phaseOf_eq_running_iff, JoinsAgain]
  by_cases hstart : .start ∈ cs
  · cases hstops : stopsAfterStart cs with
    | nil => simp [hstart]
    | cons join rest => simp [hstart]
  · simp [hstart, stopsAfterStart_of_notMem hstart]

/-- A started pool with a thread cannot be destroyed, and detaching twice throws. -/
theorem lifetime_not_safe :
    (construct 1 0).lifetime [.start] = .error .terminate ∧
      (construct 1 0).lifetime [.start, .stop false, .stop false] = .error .systemError ∧
      ¬∀ n cs, SafeLifetime (construct n 0) cs := by
  refine ⟨rfl, rfl, fun hall => ?_⟩
  have h := (hall 1 [.start]).returns
  cases h

end ThreadPoolExecutor

/-! ## The calls and the steps -/

/-- The call that begins with a step. -/
def PoolAct.call? : PoolAct → Option PoolCall
  | .schedulerTask _ task => some (.schedulerTask task)
  | .start _ => some .start
  | .stop _ join => some (.stop join)
  | _ => none

namespace ThreadPool

open ThreadPoolExecutor

variable {s s' : ThreadPool} {c : ℕ}

/-- The pool as its owner sees it. -/
def object (s : ThreadPool) : ThreadPoolExecutor where
  threadCount := s.threadCount
  stopped := s.stopped
  isStopping := s.isStopping
  started := s.started
  threads := (List.range s.threads).map s.joinable
  accepted := s.accepted

/-- The second half of `Stop`. -/
def releaseThreads (join : Bool) (q : ThreadPoolExecutor) :
    Except StdError ThreadPoolExecutor :=
  if join then .ok { q with threads := waitForTaskDone q.threads }
  else (detachAllThreads q.threads).map fun threads => { q with threads := threads }

/-- What the rest of a call does to the pool, from where its caller stands. -/
def finish (q : ThreadPoolExecutor) : CallerPc → Except StdError ThreadPoolExecutor
  | .idle => .ok q
  | .schedulerTest task => .ok (q.schedulerTask task)
  | .push task => .ok { q with accepted := q.accepted ++ [task] }
  | .notifyTest k | .notifyAcquire k | .notifyAll k | .notifyRelease k =>
    match k with
    | .schedulerTask => .ok q
    | .stop join => releaseThreads join q
  | .startTest => .ok q.start
  | .startSetStarted => .ok { q with
      started := true, stopped := false, threads := q.threads ++ List.replicate q.threadCount true }
  | .startSetStopped => .ok { q with
      stopped := false, threads := q.threads ++ List.replicate q.threadCount true }
  | .spawn left => .ok { q with threads := q.threads ++ List.replicate left true }
  | .stopTest join => q.stop join
  | .stopSet join => releaseThreads join { q with isStopping := true }
  | .join i => .ok { q with
      threads := q.threads.take i ++ waitForTaskDone (q.threads.drop i) }
  | .detach i => (detachAllThreads (q.threads.drop i)).map fun threads =>
      { q with threads := q.threads.take i ++ threads }

lemma map_update_set (f : ℕ → Bool) (n i : ℕ) (b : Bool) :
    (List.range n).map (Function.update f i b) = ((List.range n).map f).set i b := by
  refine List.ext_getElem (by simp) fun w hw _ => ?_
  by_cases heq : w = i
  · subst heq
    simp
  · simp [List.getElem_set_of_ne (Ne.symm heq), heq]

/-- A new thread is joinable. -/
lemma map_update_range_succ (f : ℕ → Bool) (n : ℕ) :
    (List.range (n + 1)).map (Function.update f n true) = (List.range n).map f ++ [true] := by
  rw [List.range_succ, List.map_append, map_update_set, List.set_eq_of_length_le (by simp)]
  simp

/-- Thread `i`, which is joinable, is released: the threads up to it are as they will be. -/
lemma object_release {i : ℕ} (pc : CallerPc) (hi : i < s.threads)
    (hjoinable : s.joinable i = true) :
    s.object.threads.drop i = true :: s.object.threads.drop (i + 1) ∧
      ({ s.setCaller c pc with joinable := Function.update s.joinable i false } :
        ThreadPool).object =
        { s.object with
          threads := s.object.threads.take i ++ false :: s.object.threads.drop (i + 1) } := by
  have hlen : i < s.object.threads.length := by simpa [object] using hi
  constructor
  · rw [List.drop_eq_getElem_cons hlen]
    simp [object, hjoinable]
  · have hset : (List.range s.threads).map (Function.update s.joinable i false) =
        s.object.threads.set i false := map_update_set s.joinable s.threads i false
    rw [List.set_eq_take_append_cons_drop, if_pos hlen] at hset
    rw [← hset]
    rfl

/-! ### The steps of the two loops -/

variable {q : ThreadPoolExecutor} {i : ℕ} {b : Bool} {rest : List Bool}

/-- The list cut at thread `i` and, with that thread released, one further. -/
lemma take_drop_released (h : q.threads.drop i = b :: rest) :
    (q.threads.take i ++ false :: rest).take (i + 1) = q.threads.take i ++ [false] ∧
      (q.threads.take i ++ false :: rest).drop (i + 1) = rest := by
  have hi : i < q.threads.length := by
    by_contra hle
    rw [List.drop_eq_nil_of_le (Nat.le_of_not_lt hle)] at h
    cases h
  have hlen : (q.threads.take i).length = i := by rw [List.length_take]; omega
  constructor
  · rw [List.take_append, hlen, List.take_of_length_le (by omega)]
    simp
  · rw [List.drop_append, hlen, List.drop_of_length_le (by omega)]
    simp

lemma finish_join (h : q.threads.drop i = b :: rest) :
    finish { q with threads := q.threads.take i ++ false :: rest } (.join (i + 1)) =
      finish q (.join i) := by
  obtain ⟨htake, hdrop⟩ := take_drop_released h
  cases b <;> simp [finish, htake, hdrop, h, waitForTaskDone]

lemma finish_detach (h : q.threads.drop i = true :: rest) :
    finish { q with threads := q.threads.take i ++ false :: rest } (.detach (i + 1)) =
      finish q (.detach i) := by
  obtain ⟨htake, hdrop⟩ := take_drop_released h
  simp only [finish, htake, hdrop, h, detachAllThreads]
  cases detachAllThreads rest <;> simp [Except.map]

/-- `NotifyCondition` leaves the threads alone. -/
lemma finish_afterNotify (k : Notifier) (q : ThreadPoolExecutor) :
    finish q (afterNotify k) = finish q (.notifyTest k) := by
  cases k with
  | schedulerTask => rfl
  | stop join => cases join <;> simp [afterNotify, finish, releaseThreads]

/-- Thread `i` has been released before: the list begins there with `false`. -/
lemma object_drop_released (hi : i < s.threads) (hj : s.joinable i = false) :
    s.object.threads.drop i = false :: s.object.threads.drop (i + 1) := by
  have hlen : i < s.object.threads.length := by simpa [object] using hi
  rw [List.drop_eq_getElem_cons hlen]
  simpa [object] using hj

/-- One round of the loop of `WaitForTaskDone`. -/
lemma joinStep_finish (hpc : s.callers c = .join i) (h : s.callerStep c = some s') :
    finish s'.object (s'.callers c) = finish s.object (s.callers c) ∧ s'.fault = s.fault := by
  simp only [callerStep, hpc] at h
  rw [hpc]
  split at h
  next hi =>
    obtain rfl := Option.some.inj h
    have hlen : s.object.threads.length ≤ i := by simpa [object] using hi
    refine ⟨?_, rfl⟩
    simp only [setCaller, Function.update_self, finish, List.drop_of_length_le hlen,
      List.take_of_length_le hlen]
    simp [object, waitForTaskDone]
  next hi =>
    have hlt : i < s.threads := Nat.lt_of_not_le hi
    split at h
    next hj =>
      obtain rfl := Option.some.inj h
      have hdrop := object_drop_released hlt (by simpa using hj)
      refine ⟨?_, rfl⟩
      rw [← finish_join hdrop, ← hdrop, List.take_append_drop]
      simp [setCaller, object]
    next hj =>
      obtain ⟨-, h⟩ := Option.ite_none_right_eq_some.mp h
      obtain rfl := Option.some.inj h
      obtain ⟨hdrop, hobject⟩ := object_release (c := c) (.join (i + 1)) hlt (by simpa using hj)
      refine ⟨?_, rfl⟩
      rw [← finish_join hdrop, hobject]
      simp [setCaller]

/-- One round of the loop of `DetachAllThreads`, which throws at a thread that has been released
before. -/
lemma detachStep_finish (hpc : s.callers c = .detach i) (h : s.callerStep c = some s') :
    finish s'.object (s'.callers c) = finish s.object (s.callers c) ∧ s'.fault = s.fault ∨
      s'.fault = some .notJoinable ∧ finish s.object (s.callers c) = .error .systemError := by
  simp only [callerStep, hpc] at h
  rw [hpc]
  split at h
  next hi =>
    obtain rfl := Option.some.inj h
    have hlen : s.object.threads.length ≤ i := by simpa [object] using hi
    refine .inl ⟨?_, rfl⟩
    simp only [setCaller, Function.update_self, finish, List.drop_of_length_le hlen,
      List.take_of_length_le hlen]
    simp [object, detachAllThreads, Except.map]
  next hi =>
    have hlt : i < s.threads := Nat.lt_of_not_le hi
    split at h
    next hj =>
      obtain rfl := Option.some.inj h
      obtain ⟨hdrop, hobject⟩ := object_release (c := c) (.detach (i + 1)) hlt hj
      refine .inl ⟨?_, rfl⟩
      rw [← finish_detach hdrop, hobject]
      simp [setCaller]
    next hj =>
      obtain rfl := Option.some.inj h
      have hdrop := object_drop_released hlt (by simpa using hj)
      exact .inr ⟨rfl, by simp [finish, hdrop, detachAllThreads, Except.map]⟩

/-- A step of a caller leaves the outcome of its call as it is, or is the call's exception. -/
lemma callerStep_finish (h : s.callerStep c = some s') :
    finish s'.object (s'.callers c) = finish s.object (s.callers c) ∧ s'.fault = s.fault ∨
      s'.fault = some .notJoinable ∧ finish s.object (s.callers c) = .error .systemError := by
  have hself (pc : CallerPc) : Function.update s.callers c pc c = pc := Function.update_self ..
  cases hpc : s.callers c with
  | idle => simp [callerStep, hpc] at h
  | schedulerTest task =>
    simp only [callerStep, hpc, Option.some.injEq] at h
    subst h
    refine .inl ⟨?_, rfl⟩
    by_cases hrun : (!s.stopped && !s.isStopping) = true <;>
      simp [setCaller, hrun, finish, object, ThreadPoolExecutor.schedulerTask]
  | push task =>
    simp only [callerStep, hpc] at h
    obtain ⟨-, h⟩ := Option.ite_none_right_eq_some.mp h
    obtain rfl := Option.some.inj h
    exact .inl ⟨by simp [setCaller, finish, object], rfl⟩
  | notifyTest k =>
    simp only [callerStep, hpc] at h
    obtain ⟨-, h⟩ := Option.ite_none_right_eq_some.mp h
    obtain rfl := Option.some.inj h
    refine .inl ⟨?_, rfl⟩
    split
    · show finish s.object (Function.update s.callers c (afterNotify k) c) = _
      rw [hself, finish_afterNotify]
    · simp [setCaller, finish, object]
  | notifyAcquire k =>
    simp only [callerStep, hpc] at h
    obtain ⟨-, h⟩ := Option.ite_none_right_eq_some.mp h
    obtain rfl := Option.some.inj h
    exact .inl ⟨by simp [setCaller, finish, object], rfl⟩
  | notifyAll k =>
    simp only [callerStep, hpc, Option.some.injEq] at h
    subst h
    exact .inl ⟨by simp [setCaller, finish, object], rfl⟩
  | notifyRelease k =>
    simp only [callerStep, hpc, Option.some.injEq] at h
    subst h
    refine .inl ⟨?_, rfl⟩
    show finish s.object (Function.update s.callers c (afterNotify k) c) = _
    rw [hself, finish_afterNotify]
    rfl
  | startTest =>
    simp only [callerStep, hpc, Option.some.injEq] at h
    subst h
    refine .inl ⟨?_, rfl⟩
    by_cases hstart : (!s.started && s.stopped) = true <;>
      simp [setCaller, hstart, finish, object, ThreadPoolExecutor.start]
  | startSetStarted =>
    simp only [callerStep, hpc, Option.some.injEq] at h
    subst h
    exact .inl ⟨by simp [setCaller, finish, object], rfl⟩
  | startSetStopped =>
    simp only [callerStep, hpc, Option.some.injEq] at h
    subst h
    exact .inl ⟨by simp [setCaller, finish, object], rfl⟩
  | spawn left =>
    cases left with
    | zero =>
      simp only [callerStep, hpc, Option.some.injEq] at h
      subst h
      exact .inl ⟨by simp [setCaller, finish, object], rfl⟩
    | succ left =>
      simp only [callerStep, hpc, Option.some.injEq] at h
      subst h
      refine .inl ⟨?_, rfl⟩
      simp [setCaller, setWorker, finish, object, map_update_range_succ, List.replicate_succ]
  | stopTest join =>
    simp only [callerStep, hpc, Option.some.injEq] at h
    subst h
    refine .inl ⟨?_, rfl⟩
    by_cases hstop : (!s.stopped && s.started) = true
    · simp [setCaller, hstop, finish, object, ThreadPoolExecutor.stop, releaseThreads]
    · simp [setCaller, hstop, finish, object, ThreadPoolExecutor.stop]
  | stopSet join =>
    simp only [callerStep, hpc, Option.some.injEq] at h
    subst h
    exact .inl ⟨by simp [setCaller, finish, object], rfl⟩
  | join i =>
    rw [← hpc]
    exact .inl (joinStep_finish hpc h)
  | detach i =>
    rw [← hpc]
    exact detachStep_finish hpc h

lemma workerStep_object {w : ℕ} (h : s.workerStep w = some s') :
    s'.object = s.object ∧ (s.fault = none → s'.fault ≠ some .notJoinable) := by
  unfold workerStep at h
  repeat' split at h
  all_goals cases h
  all_goals exact ⟨rfl, by simp +contextual [setWorker]⟩

/-- The calls begun in a run, in order. -/
def callsOf : List (ThreadPool × PoolAct) → List PoolCall
  | [] => []
  | (_, a) :: tr => callsOf tr ++ a.call?.toList

/-- Only caller `c` calls. -/
def Solo (c : ℕ) (_ : ThreadPool) (a : PoolAct) : Prop := ∀ c', a.caller? = some c' → c' = c

/-- A call begins. -/
lemma begin_finish {pc : CallerPc} (h : s.begin c pc = some s') :
    s.callers c = .idle ∧ s'.object = s.object ∧ s'.callers c = pc ∧ s'.fault = s.fault := by
  obtain ⟨hidle, h⟩ := Option.ite_none_right_eq_some.mp h
  obtain rfl := Option.some.inj h
  exact ⟨hidle, rfl, Function.update_self .., rfl⟩

/-- **A pool with one caller goes through its calls.** In every run with a single caller, whatever
the workers do, the pool is where its calls lead to when the call under way is finished, and an
exception is thrown exactly where the calls lead to one. -/
theorem solo_calls {tr : List (ThreadPool × PoolAct)} (h : poolSystem.Exec (Solo c) tr s) :
    (s.fault ≠ some .notJoinable →
      calls (callsOf tr) { threadCount := s.threadCount } = finish s.object (s.callers c)) ∧
    (s.fault = some .notJoinable →
      calls (callsOf tr) { threadCount := s.threadCount } = .error .systemError) := by
  induction h with
  | init h =>
    obtain ⟨n, rfl⟩ := h
    exact ⟨fun _ => rfl, fun hf => by cases hf⟩
  | @step tr s s' a _ hsolo hstep ih =>
    have hcount : s'.threadCount = s.threadCount := by
      cases step_effect hstep <;> rfl
    obtain ⟨hfault, hact⟩ := Option.ite_none_left_eq_some.mp hstep
    have hnone : s.fault = none := by simpa using hfault
    have hcalls := ih.1 (by simp [hnone])
    rw [hcount]
    -- a call begins: its outcome is what the functions say of the pool as it is
    have hbegin : ∀ pc call, (∀ q : ThreadPoolExecutor, finish q pc = q.call call) →
        s.begin c pc = some s' →
        (s'.fault ≠ some .notJoinable → calls (callsOf tr ++ [call])
          { threadCount := s.threadCount } = finish s'.object (s'.callers c)) ∧
        (s'.fault = some .notJoinable → calls (callsOf tr ++ [call])
          { threadCount := s.threadCount } = .error .systemError) := by
      intro pc call hcall h
      obtain ⟨hidle, hobject, hpc, hf⟩ := begin_finish h
      refine ⟨fun _ => ?_, fun hf' => by simp [hf, hnone] at hf'⟩
      rw [calls_concat, hcalls, hidle, hobject, hpc, hcall]
      rfl
    cases a with
    | schedulerTask c' task =>
      obtain rfl := hsolo c' rfl
      exact hbegin _ (.schedulerTask task) (fun _ => rfl) hact
    | start c' =>
      obtain rfl := hsolo c' rfl
      exact hbegin _ .start (fun _ => rfl) hact
    | stop c' join =>
      obtain rfl := hsolo c' rfl
      exact hbegin _ (.stop join) (fun _ => rfl) hact
    | caller c' =>
      obtain rfl := hsolo c' rfl
      simp only [callsOf, PoolAct.call?, Option.toList_none, List.append_nil, hcalls]
      rcases callerStep_finish hact with ⟨heq, hf⟩ | ⟨hf, heq⟩
      · exact ⟨fun _ => heq.symm, fun hf' => by simp [hf, hnone] at hf'⟩
      · exact ⟨fun hne => absurd hf hne, fun _ => heq⟩
    | worker w =>
      simp only [callsOf, PoolAct.call?, Option.toList_none, List.append_nil, hcalls]
      obtain ⟨hobject, hf⟩ := workerStep_object hact
      rw [hobject, workerStep_callers hact]
      exact ⟨fun _ => rfl, fun hf' => absurd hf' (hf hnone)⟩
    | spurious w =>
      simp only [callsOf, PoolAct.call?, Option.toList_none, List.append_nil, hcalls]
      simp only at hact
      split at hact <;> try cases hact
      exact ⟨fun _ => rfl, fun hf' => by simp [setWorker, hnone] at hf'⟩

end ThreadPool

end CoroutineCpp
