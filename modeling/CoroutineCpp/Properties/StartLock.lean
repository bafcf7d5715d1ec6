import CoroutineCpp.Model.SchedLife

/-!
# One start

`m_started_mtx` is locked by the first `Start` that gets so far and never unlocked.  So only one
call ever makes executors (`Locked`), and how many there are can be read off the point where it
stands (`Stage`, `Bounded`), whatever other calls of `Start`, `Begin` and `Stop` there are.
-/

namespace CoroutineCpp

open Framework TransitionSystem

namespace StartPc

/-- The call is between the lock and the call of `Process`. -/
def making : StartPc → Bool
  | .settle .. | .create _ | .launch .. | .pushBack .. | .dispatcher | .front => true
  | _ => false

/-- The call is past the lock. -/
def inside : StartPc → Bool
  | .process _ => true
  | pc => pc.making

end StartPc

namespace SchedLife

variable {s s' : SchedLife} {a : LifeAct} {c : ℕ}

/-! ## What a step can do -/

/-- One step, with what has been tested before it. -/
inductive Effect (s : SchedLife) : LifeAct → SchedLife → Prop
  | call {a : LifeAct} {c : ℕ} {nMin nMax : ℤ} {begun : ℕ → Bool} (hpc : s.callers c = .idle) :
      Effect s a { s.setCaller c (.testStopping nMin nMax) with begun := begun }
  | leave {a : LifeAct} {c : ℕ} {terminated : Bool}
      (hpc : (s.callers c).making = false) :
      Effect s a { s.setCaller c .idle with terminated := terminated }
  | pass {a : LifeAct} {c : ℕ} {nMin nMax : ℤ} (hpc : s.callers c = .testStopping nMin nMax)
      (hrun : s.stopping = false) : Effect s a (s.setCaller c (.tryLock nMin nMax))
  | lock {a : LifeAct} {c : ℕ} {nMin nMax : ℤ} (hpc : s.callers c = .tryLock nMin nMax)
      (hfree : s.startedMtx = false) :
      Effect s a
        { s.setCaller c (.settle nMin nMax) with startedMtx := true, entered := c :: s.entered }
  | settle {a : LifeAct} {c : ℕ} {nMin nMax : ℤ} {minCnt maxCnt : ℤ}
      (hpc : s.callers c = .settle nMin nMax) (hle : minCnt ≤ maxCnt) :
      Effect s a
        { s.setCaller c (.create 0) with minThreadCnt := minCnt, maxThreadCnt := maxCnt }
  | make {a : LifeAct} {c i : ℕ} (hpc : s.callers c = .create i)
      (hlt : (i : ℤ) < s.minThreadCnt - 1) (hroom : (s.table.length : ℤ) < s.maxThreadCnt) :
      Effect s a { s.setCaller c (.launch i s.made) with
        made := s.made + 1
        objects := Function.update s.objects s.made { id := s.table.length } }
  | full {a : LifeAct} {c i : ℕ} (hpc : s.callers c = .create i)
      (hlt : (i : ℤ) < s.minThreadCnt - 1) (hroom : s.maxThreadCnt ≤ s.table.length) :
      Effect s a (s.setCaller c (.create (i + 1)))
  | created {a : LifeAct} {c i : ℕ} (hpc : s.callers c = .create i)
      (hle : s.minThreadCnt - 1 ≤ i) : Effect s a (s.setCaller c .dispatcher)
  | launch {a : LifeAct} {c i x : ℕ} (hpc : s.callers c = .launch i x) :
      Effect s a ((s.setCaller c (.pushBack i x)).setThread x .ready)
  | pushBack {a : LifeAct} {c i x : ℕ} (hpc : s.callers c = .pushBack i x) :
      Effect s a { s.setCaller c (.create (i + 1)) with table := s.table ++ [x] }
  | dispatcher {a : LifeAct} {c : ℕ} (hpc : s.callers c = .dispatcher) :
      Effect s a { s.setCaller c .front with
        dispatchers := if 1 < s.maxThreadCnt then s.dispatchers ++ [.test] else s.dispatchers }
  | front {a : LifeAct} {c x : ℕ} {rest : List ℕ} (hpc : s.callers c = .front)
      (htable : s.table = x :: rest) : Effect s a (s.setCaller c (.process x))
  | noFront {a : LifeAct} {c : ℕ} (hpc : s.callers c = .front) (htable : s.table = []) :
      Effect s a { s with fault := some .outOfBounds }
  | thread {a : LifeAct} {x : ℕ} {pc : ExecutorPc} (hborn : s.threads x ≠ .unborn)
      (hpc : pc ≠ .unborn) : Effect s a (s.setThread x pc)
  | terminate {a : LifeAct} : Effect s a { s with terminated := true }
  | flag {a : LifeAct} (x : ℕ) : Effect s a (s.setStopping x)
  | dispatch {a : LifeAct} {dispatchers : List DispatcherPc}
      (hlen : dispatchers.length = s.dispatchers.length) :
      Effect s a { s with dispatchers := dispatchers }
  | stop : Effect s .stop s.stop

lemma callerStep_effect {hardware : ℕ} (h : s.callerStep c hardware = some s') :
    Effect s a s' := by
  unfold callerStep at h
  cases hpc : s.callers c with
  | idle => simp [hpc] at h
  | testStopping nMin nMax =>
    simp only [hpc, Option.some.injEq] at h
    subst h
    cases hstop : s.stopping with
    | true =>
      show Effect s a { s.setCaller c .idle with terminated := s.terminated }
      exact .leave (by simp [hpc, StartPc.making])
    | false => exact .pass hpc hstop
  | tryLock nMin nMax =>
    simp only [hpc] at h
    split at h
    · obtain rfl := Option.some.inj h
      exact .leave (by simp [hpc, StartPc.making])
    next hfree =>
      obtain rfl := Option.some.inj h
      exact .lock hpc (by simpa using hfree)
  | settle nMin nMax =>
    simp only [hpc, Option.some.injEq] at h
    subst h
    refine .settle hpc ?_
    unfold maxThreads
    split
    · exact Int.le_refl _
    · omega
  | create i =>
    simp only [hpc] at h
    split_ifs at h with hlt hroom
    · exact Option.some.inj h ▸ .make hpc hlt hroom
    · exact Option.some.inj h ▸ .full hpc hlt (Int.not_lt.mp hroom)
    · exact Option.some.inj h ▸ .created hpc (Int.not_lt.mp hlt)
  | launch i x =>
    simp only [hpc, Option.some.injEq] at h
    exact h ▸ .launch hpc
  | pushBack i x =>
    simp only [hpc, Option.some.injEq] at h
    exact h ▸ .pushBack hpc
  | dispatcher =>
    simp only [hpc, Option.some.injEq] at h
    exact h ▸ .dispatcher hpc
  | front =>
    simp only [hpc] at h
    split at h
    next htable => exact Option.some.inj h ▸ .noFront hpc htable
    next x rest htable => exact Option.some.inj h ▸ .front hpc htable
  | process x =>
    simp only [hpc] at h
    obtain ⟨-, h⟩ := Option.ite_none_right_eq_some.mp h
    obtain rfl := Option.some.inj h
    show Effect s a { s.setCaller c .idle with terminated := s.terminated }
    exact .leave (by simp [hpc, StartPc.making])

lemma step_effect (h : s.step a = some s') : Effect s a s' := by
  obtain ⟨-, h⟩ := Option.ite_none_left_eq_some.mp h
  cases a with
  | start c nMin nMax =>
    obtain ⟨hpc, h⟩ := Option.ite_none_right_eq_some.mp h
    obtain rfl := Option.some.inj h
    show Effect s _ { s.setCaller c (.testStopping nMin nMax) with begun := s.begun }
    exact .call hpc.1
  | begin c nMin nMax =>
    obtain ⟨hpc, h⟩ := Option.ite_none_right_eq_some.mp h
    exact Option.some.inj h ▸ .call hpc
  | caller c hardware => exact callerStep_effect h
  | tryLockFails c =>
    dsimp only at h
    split at h
    next hpc => exact Option.some.inj h ▸ .leave (by simp [hpc, StartPc.making])
    next => cases h
  | throw c =>
    dsimp only at h
    split at h
    next hpc => exact Option.some.inj h ▸ .leave (by simp [hpc, StartPc.making])
    next => cases h
  | executor x =>
    unfold executorStep at h
    cases hpc : s.threads x with
    | unborn | returned => simp [hpc] at h
    | ready =>
      simp only [hpc, Option.some.injEq] at h
      exact h ▸ .thread (by simp [hpc]) (by simp)
    | processing =>
      simp only [hpc] at h
      obtain ⟨-, h⟩ := Option.ite_none_right_eq_some.mp h
      exact Option.some.inj h ▸ .thread (by simp [hpc]) (by simp)
  | executorThrow x =>
    obtain ⟨-, h⟩ := Option.ite_none_right_eq_some.mp h
    exact Option.some.inj h ▸ .terminate
  | timeout c =>
    dsimp only at h
    split at h
    next x hpc => exact Option.some.inj h ▸ .flag x
    next => cases h
  | executorTimeout x =>
    obtain ⟨-, h⟩ := Option.ite_none_right_eq_some.mp h
    exact Option.some.inj h ▸ .flag x
  | dispatcher d =>
    replace h : s.dispatcherStep d = some s' := h
    unfold dispatcherStep at h
    split at h
    next => exact Option.some.inj h ▸ .dispatch (by simp)
    next => exact Option.some.inj h ▸ .dispatch (by simp)
    next => cases h
  | stop =>
    obtain rfl := Option.some.inj h
    exact .stop

/-- An invariant of the effects, under the guard `G`, holds of the reachable states. -/
lemma effect_invariant {G : SchedLife → LifeAct → Prop} {I : SchedLife → Prop} (hinit : I {})
    (heff : ∀ s a s', I s → G s a → Effect s a s' → I s')
    (h : lifeSystem.ReachableUnder G s) : I s := by
  refine h.invariant ?_ fun s a s' _ hs hG hstep => heff s a s' hs hG (step_effect hstep)
  rintro s rfl
  exact hinit

/-! ## The lock -/

/-- The mutex is free until a call gets past it, and no other call does. -/
structure Locked (s : SchedLife) : Prop where
  free : s.startedMtx = false → s.entered = []
  one : s.entered.length ≤ 1
  inside : ∀ c, (s.callers c).inside = true → s.entered = [c]

lemma Locked.caller {pc : StartPc} (h : s.Locked)
    (hc : s'.callers = Function.update s.callers c pc) (hm : s'.startedMtx = s.startedMtx)
    (he : s'.entered = s.entered) (hpc : pc.inside = true → (s.callers c).inside = true) :
    s'.Locked where
  free := by
    rw [hm, he]
    exact h.free
  one := he ▸ h.one
  inside c' hc' := by
    rw [he]
    by_cases heq : c' = c
    · subst heq
      exact h.inside c' (hpc (by simpa [hc] using hc'))
    · exact h.inside c' (by simpa [hc, heq] using hc')

lemma Effect.locked (h : Effect s a s') (hs : s.Locked) : s'.Locked := by
  cases h with
  | call | leave | pass => exact hs.caller rfl rfl rfl (by simp [StartPc.inside, StartPc.making])
  | settle hpc | make hpc | full hpc | created hpc | launch hpc | pushBack hpc | dispatcher hpc
  | front hpc => exact hs.caller rfl rfl rfl (by simp [hpc, StartPc.inside, StartPc.making])
  | @lock _ c nMin nMax hpc hfree =>
    have hnone := hs.free hfree
    refine ⟨by simp, by simp [hnone], fun c' hc' => ?_⟩
    by_cases heq : c' = c
    · simp [heq, hnone]
    · have hin := hs.inside c' (by simpa [setCaller, heq] using hc')
      simp [hnone] at hin
  | _ => exact ⟨hs.free, hs.one, hs.inside⟩

lemma reachable_locked {G : SchedLife → LifeAct → Prop} (h : lifeSystem.ReachableUnder G s) :
    s.Locked := by
  refine effect_invariant (I := Locked) ⟨fun _ => rfl, by simp, fun c hc => ?_⟩ ?_ h
  · simp [StartPc.inside, StartPc.making] at hc
  · exact fun s a s' hs _ h => h.locked hs

/-- Beside a call that is past the lock there is no other. -/
lemma Locked.not_inside {c' : ℕ} (h : s.Locked) (hc : (s.callers c).inside = true)
    (hne : c' ≠ c) : (s.callers c').inside = false := by
  rw [← Bool.not_eq_true]
  intro hc'
  have heq := (h.inside c hc).symm.trans (h.inside c' hc')
  exact hne (by simpa using heq.symm)

/-! ## How much is made -/

/-- The number of dispatchers a `Start` makes. -/
def dispatcherCount (s : SchedLife) : ℕ := if 1 < s.maxThreadCnt then 1 else 0

/-- What there is at most while a call of `Start` stands at the given point. -/
def Stage (s : SchedLife) : StartPc → Prop
  | .settle .. => s.made = 1 ∧ s.table.length ≤ 1 ∧ s.dispatchers.length = 0
  | .create i => s.made ≤ i + 1 ∧ s.dispatchers.length = 0
  | .launch i _ | .pushBack i _ =>
    s.made ≤ i + 2 ∧ (i : ℤ) < s.minThreadCnt - 1 ∧ (s.table.length : ℤ) < s.maxThreadCnt ∧
      s.dispatchers.length = 0
  | .dispatcher => s.dispatchers.length = 0
  | .front | .process _ => s.dispatchers.length = s.dispatcherCount
  | _ => True

lemma stage_of_not_inside {pc : StartPc} (h : pc.inside = false) : s.Stage pc := by
  cases pc <;> trivial

/-- Fewer entries in the table leave room. -/
lemma Stage.mono {pc : StartPc} (h : s.Stage pc) (hmin : s'.minThreadCnt = s.minThreadCnt)
    (hmax : s'.maxThreadCnt = s.maxThreadCnt) (hmade : s'.made = s.made)
    (htable : s'.table.length ≤ s.table.length)
    (hdisp : s'.dispatchers.length = s.dispatchers.length) : s'.Stage pc := by
  cases pc with
  | idle | testStopping | tryLock => trivial
  | settle | launch | pushBack =>
    simp only [Stage, hmin, hmax, hmade, hdisp] at h ⊢
    omega
  | create | dispatcher | front | process =>
    simp only [Stage, dispatcherCount, hmax, hmade, hdisp] at h ⊢
    exact h

/-- What the defaults and the one call that makes executors allow. -/
structure Bounded (s : SchedLife) : Prop where
  start : s.entered = [] → s.made = 1 ∧ s.table.length ≤ 1 ∧ s.dispatchers.length = 0
  stage : ∀ c, s.Stage (s.callers c)
  min_le_max : s.minThreadCnt ≤ s.maxThreadCnt
  made_le : (s.made : ℤ) ≤ max 1 s.minThreadCnt
  table_le : (s.table.length : ℤ) ≤ max 1 s.maxThreadCnt
  dispatchers_le : s.dispatchers.length ≤ s.dispatcherCount

/-- The call that is past the lock moves; the others are not. -/
lemma Locked.stage {pc : StartPc} (h : s.Locked) (hin : (s.callers c).inside = true)
    (hc : s'.callers = Function.update s.callers c pc) (hpc : s'.Stage pc) (c' : ℕ) :
    s'.Stage (s'.callers c') := by
  rw [hc]
  by_cases heq : c' = c
  · simpa [heq] using hpc
  · rw [Function.update_of_ne heq]
    exact stage_of_not_inside (h.not_inside hin heq)

/-- A call that is not past the lock moves, and does not get past it. -/
lemma Bounded.outside {pc : StartPc} (h : s.Bounded) (hpc : pc.inside = false) (c' : ℕ) :
    s.Stage (Function.update s.callers c pc c') := by
  by_cases heq : c' = c
  · subst heq
    simpa using stage_of_not_inside hpc
  · simpa [heq] using h.stage c'

lemma Effect.bounded (h : Effect s a s') (hl : s.Locked) (hs : s.Bounded) : s'.Bounded := by
  have hin : ∀ {c pc}, s.callers c = pc → pc.inside = true →
      (s.callers c).inside = true ∧ s.entered ≠ [] := by
    intro c pc hpc hin
    rw [hpc]
    refine ⟨hin, ?_⟩
    rw [hl.inside c (hpc ▸ hin)]
    simp
  have hstage : ∀ {c pc}, s.callers c = pc → s.Stage pc := fun hpc => hpc ▸ hs.stage _
  cases h with
  | call | leave | pass =>
    exact ⟨hs.start, hs.outside rfl, hs.min_le_max, hs.made_le, hs.table_le, hs.dispatchers_le⟩
  | @lock _ c nMin nMax hpc hfree =>
    have hnone := hl.free hfree
    refine ⟨by simp, fun c' => ?_, hs.min_le_max, hs.made_le, hs.table_le, hs.dispatchers_le⟩
    by_cases heq : c' = c
    · subst heq
      simp only [setCaller, Function.update_self]
      exact hs.start hnone
    · simp only [setCaller, Function.update_of_ne heq]
      exact hs.stage c'
  | settle hpc hle =>
    obtain ⟨hmade, htable, hdisp⟩ := hstage hpc
    obtain ⟨hcin, hent⟩ := hin hpc rfl
    refine ⟨fun he => absurd he hent, hl.stage hcin rfl ⟨?_, hdisp⟩, hle, ?_, ?_, ?_⟩
    · exact Nat.le_of_eq hmade
    · simp only [setCaller]
      omega
    · simp only [setCaller]
      omega
    · simp [setCaller, hdisp]
  | make hpc hlt hroom =>
    obtain ⟨hmade, hdisp⟩ := hstage hpc
    obtain ⟨hcin, hent⟩ := hin hpc rfl
    refine ⟨fun he => absurd he hent, hl.stage hcin rfl ⟨?_, hlt, hroom, hdisp⟩, hs.min_le_max, ?_,
      hs.table_le, hs.dispatchers_le⟩
    · exact Nat.succ_le_succ hmade
    · simp only [setCaller]
      omega
  | full hpc =>
    obtain ⟨hmade, hdisp⟩ := hstage hpc
    obtain ⟨hcin, hent⟩ := hin hpc rfl
    exact ⟨fun he => absurd he hent, hl.stage hcin rfl ⟨Nat.le_succ_of_le hmade, hdisp⟩,
      hs.min_le_max, hs.made_le, hs.table_le, hs.dispatchers_le⟩
  | created hpc =>
    obtain ⟨-, hdisp⟩ := hstage hpc
    obtain ⟨hcin, hent⟩ := hin hpc rfl
    exact ⟨fun he => absurd he hent, hl.stage hcin rfl hdisp, hs.min_le_max, hs.made_le,
      hs.table_le, hs.dispatchers_le⟩
  | launch hpc =>
    obtain ⟨hcin, hent⟩ := hin hpc rfl
    exact ⟨fun he => absurd he hent, hl.stage hcin rfl (hstage hpc), hs.min_le_max, hs.made_le,
      hs.table_le, hs.dispatchers_le⟩
  | pushBack hpc =>
    obtain ⟨hmade, hlt, hroom, hdisp⟩ := hstage hpc
    obtain ⟨hcin, hent⟩ := hin hpc rfl
    refine ⟨fun he => absurd he hent, hl.stage hcin rfl ⟨hmade, hdisp⟩, hs.min_le_max, hs.made_le,
      ?_, hs.dispatchers_le⟩
    simp only [setCaller, List.length_append, List.length_singleton]
    omega
  | dispatcher hpc =>
    have hdisp : s.dispatchers = [] := List.length_eq_zero_iff.mp (hstage hpc)
    obtain ⟨hcin, hent⟩ := hin hpc rfl
    have hcount : (if 1 < s.maxThreadCnt then s.dispatchers ++ [.test] else s.dispatchers).length =
        s.dispatcherCount := by
      unfold dispatcherCount
      split <;> simp [hdisp]
    exact ⟨fun he => absurd he hent, hl.stage hcin rfl hcount, hs.min_le_max, hs.made_le,
      hs.table_le, Nat.le_of_eq hcount⟩
  | front hpc =>
    obtain ⟨hcin, hent⟩ := hin hpc rfl
    exact ⟨fun he => absurd he hent, hl.stage hcin rfl (hstage hpc), hs.min_le_max, hs.made_le,
      hs.table_le, hs.dispatchers_le⟩
  | dispatch hlen =>
    refine ⟨by simpa only [hlen] using hs.start,
      fun c => (hs.stage c).mono rfl rfl rfl (Nat.le_refl _) hlen, hs.min_le_max, hs.made_le,
      hs.table_le, hlen ▸ hs.dispatchers_le⟩
  | stop =>
    refine ⟨fun he => ?_, fun c => (hs.stage c).mono rfl rfl rfl (Nat.zero_le _) rfl,
      hs.min_le_max, hs.made_le, ?_, hs.dispatchers_le⟩
    · exact ⟨(hs.start he).1, Nat.zero_le _, (hs.start he).2.2⟩
    · simp only [SchedLife.stop, List.length_nil]
      omega
  | noFront | thread | terminate | flag =>
    exact ⟨hs.start, hs.stage, hs.min_le_max, hs.made_le, hs.table_le, hs.dispatchers_le⟩

lemma reachable_bounded {G : SchedLife → LifeAct → Prop} (h : lifeSystem.ReachableUnder G s) :
    s.Bounded := by
  have hs : s.Locked ∧ s.Bounded := by
    refine effect_invariant (I := fun s => s.Locked ∧ s.Bounded) ?_ ?_ h
    · refine ⟨reachable_locked (G := G) (.init rfl), ?_⟩
      exact ⟨fun _ => ⟨rfl, Nat.le_refl _, rfl⟩, fun _ => trivial, Int.le_refl _, Int.le_refl _,
        Int.le_refl _, Nat.zero_le _⟩
    · exact fun s a s' hs _ h => ⟨h.locked hs.1, h.bounded hs.1 hs.2⟩
  exact hs.2

/-- **One `Start`.**  Whatever calls of `Start`, `Begin` and `Stop` there are, at most one call gets
past the lock, it makes no more executors than it is asked for and at most one dispatcher, and
`m_executors` never outgrows what has been reserved for it. -/
theorem started_once (h : lifeSystem.Reachable s) :
    s.entered.length ≤ 1 ∧
      (∀ c c', (s.callers c).inside = true → (s.callers c').inside = true → c = c') ∧
      (s.made : ℤ) ≤ max 1 s.minThreadCnt ∧ (s.table.length : ℤ) ≤ max 1 s.maxThreadCnt ∧
      s.dispatchers.length ≤ s.dispatcherCount := by
  have hl := reachable_locked h
  have hb := reachable_bounded h
  refine ⟨hl.one, fun c c' hc hc' => ?_, hb.made_le, hb.table_le, hb.dispatchers_le⟩
  by_contra hne
  simp [hl.not_inside hc' hne] at hc

/-- Two calls race for the lock, and the one that comes second asks for more. -/
theorem started_once_race :
    ∃ s, lifeSystem.Reachable s ∧ s.callers 0 = .process 0 ∧ s.callers 1 = .idle ∧
      s.entered = [0] ∧ s.made = 2 ∧ s.made ≤ max 1 s.minThreadCnt ∧
      s.dispatchers.length ≤ s.dispatcherCount := by
  obtain ⟨s, hs, hp⟩ := exists_reachable_of_runUnder (G := fun _ _ => True) (M := lifeSystem)
    (List.flatten [[.start 0 2 3, .start 1 5 5, .caller 1 8], List.replicate 2 (.caller 0 8),
      [.caller 1 8], List.replicate 7 (.caller 0 8)])
    (fun s => s.callers 0 = .process 0 && s.callers 1 = .idle && s.entered = [0] && s.made = 2) rfl
    (by decide)
  simp only [Bool.and_eq_true, decide_eq_true_eq] at hp
  have honce := started_once hs
  exact ⟨s, hs, hp.1.1.1, hp.1.1.2, hp.1.2, hp.2, honce.2.2.1, honce.2.2.2.2⟩

end SchedLife

end CoroutineCpp
