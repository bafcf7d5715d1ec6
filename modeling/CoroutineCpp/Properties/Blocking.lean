import CoroutineCpp.Properties.ProcessMoves

/-!
# What `IsBlocking` says of an executor

`IsBlocking` reads the clock, `m_tick`, `m_switch_cnt` and `m_switched_cnt` one after the other
while `Process` increments, stores and increments them.  Read in one piece they say how long the
coroutine of the present iteration has been running (`Tallied`); but `Process` counts a switch
before it stores the time of it, and the four readings belong together only if the thread leaves
them alone.

`isBlocking_no_false_alarm` is the guarantee for the runs in which it does (`Undisturbed`).
`isBlocking_false_alarm` shows the two ways in which it fails, an alarm before any coroutine has
ever been resumed and a subtraction that wraps; the latter follows whenever `m_tick` is stored at
the wrong moment (`wraps_of_stamp`).
-/

namespace CoroutineCpp

open Framework TransitionSystem

/-- The value of `m_tick` that was read belongs to a `Resume` that had returned when the evaluation
began (or to none). -/
def Evaluation.Stale (v : Evaluation) : Prop := v.stamps ≤ v.returnedBefore

namespace LoopState

variable {s s' : LoopState} {a : LoopAct}

/-- An evaluation that is true was begun while a `Resume` had not returned that was called more
than `COROUTINE_TIMEDOUT_US` before the evaluation ended, and no subtraction wraps. -/
def NoFalseAlarm (s : LoopState) : Prop :=
  ∀ v ev, s.evaluations v = some ev →
    (∀ ended, ev.result = some (true, ended) → ∃ j resumed, ev.returnedBefore ≤ j ∧
      s.resumes[j]? = some resumed ∧ resumed + coroutineTimedoutUs < ended) ∧
    ∀ clock tick, ev.clock = some clock → ev.tick = some tick → tick ≤ clock

/-- The step does not come between two readings that belong together. -/
def Undisturbed (s : LoopState) : LoopAct → Prop
  | .thread _ =>
    ∀ v ev, s.evaluations v = some ev →
      -- no later time is stored in `m_tick` after the clock has been read and before `m_tick` is
      (s.pc = .stamp → ∀ clock, ev.clock = some clock → ev.tick = none → s.nowUs ≤ clock) ∧
      -- no switch is counted between the readings of the counters, if `m_tick` was a stale one
      (s.pc = .count → ev.result = none → ev.Stale → ev.switchCnt = none ∧ ev.switchedCnt = none)
  | .readTick v =>
    -- the value of `m_tick` is the time of the `Resume` it was stored for
    ∀ ev, s.evaluations v = some ev → ev.returnedBefore < s.stamps →
      s.ex.tick = s.resumes[s.stamps - 1]?.getD s.nowUs
  | .elapse us =>
    -- and stays so where that `Resume` is still to be called
    us ≠ 0 → ∀ v ev, s.evaluations v = some ev → ev.result = none → ¬ev.Stale →
      ev.stamps ≤ s.resumes.length
  | .readSwitchCnt v | .readSwitchedCnt v =>
    -- beside a stale `m_tick` the counters are read outside of an iteration
    ∀ ev, s.evaluations v = some ev → ev.Stale → s.ex.switchCnt = s.ex.switchedCnt
  | _ => True

/-! ## The counters of `Process` -/

/-- How far the counters and `m_tick` are ahead of the calls of `Resume` that have returned. -/
def Tallied (s : LoopState) : Prop :=
  match s.pc with
  | .stamp =>
    s.ex.switchCnt = s.returned + 1 ∧ s.stamps = s.returned ∧ s.resumes.length = s.returned ∧
      s.ex.switchedCnt = s.returned
  | .resume =>
    s.ex.switchCnt = s.returned + 1 ∧ s.stamps = s.returned + 1 ∧
      s.resumes.length = s.returned ∧ s.ex.switchedCnt = s.returned
  | .inside | .holding =>
    s.ex.switchCnt = s.returned + 1 ∧ s.stamps = s.returned + 1 ∧
      s.resumes.length = s.returned + 1 ∧ s.ex.switchedCnt = s.returned
  | .counted =>
    s.ex.switchCnt = s.returned ∧ s.stamps = s.returned ∧ s.resumes.length = s.returned ∧
      s.ex.switchedCnt + 1 = s.returned
  | _ =>
    s.ex.switchCnt = s.returned ∧ s.stamps = s.returned ∧ s.resumes.length = s.returned ∧
      s.ex.switchedCnt = s.returned

lemma Tallied.stamps_le (h : s.Tallied) : s.stamps ≤ s.resumes.length + 1 := by
  unfold Tallied at h
  split at h <;> omega

lemma Tallied.counts_ne (h : s.Tallied) (hpc : s.pc = .counted) :
    s.ex.switchCnt ≠ s.ex.switchedCnt := by
  simp only [Tallied, hpc] at h
  omega

lemma Effect.tallied (h : Effect s a s') (hs : s.Tallied) : s'.Tallied := by
  cases h with
  | enter _ hpc | count _ hpc | stamp _ hpc => simpa [Tallied, hpc] using hs
  | resumeOver hpc | resume hpc | counted hpc | held hpc | finished hpc | setWaiting hpc
  | timedOut hpc | leave hpc | idleClean hpc | holdPush hpc | gc _ hpc | thrown _ hpc =>
    simpa [Tallied, hpc] using hs
  | switchOut hpc => rcases hpc with hpc | hpc <;> simpa [Tallied, hpc] using hs
  | assign hpc h => cases h <;> simpa [Tallied, hpc] using hs
  | @threadMove pc h =>
    generalize hpc : s.pc = pc₀ at h
    cases h <;> simpa [Tallied, hpc] using hs
  | notify =>
    unfold Tallied at hs ⊢
    cases hpc : s.pc <;> simpa [hpc, notifyAll, setClient] using hs
  | _ => exact hs

lemma reachable_tallied {G : LoopState → LoopAct → Prop} (h : loopSystem.ReachableUnder G s) :
    s.Tallied := by
  apply effect_invariant (I := Tallied) _ _ h
  · exact fun id nowUs => ⟨rfl, rfl, rfl, rfl⟩
  · exact fun s a s' hs h => h.tallied hs

/-! ## What an evaluation has read -/

/-- What `IsBlocking` reads, and what has been called so far. -/
structure Gauges where
  nowUs : ℕ
  tick : ℕ
  stamps : ℕ
  resumes : List ℕ
  switchCnt : ℕ
  switchedCnt : ℕ

def gauges (s : LoopState) : Gauges :=
  ⟨s.nowUs, s.ex.tick, s.stamps, s.resumes, s.ex.switchCnt, s.ex.switchedCnt⟩

end LoopState

open LoopState

namespace Evaluation

/-- The evaluation rests on a `Resume` that has not returned when it began. -/
def Founded (g : Gauges) (v : Evaluation) (ended : ℕ) : Prop :=
  ∃ j resumed, v.returnedBefore ≤ j ∧ g.resumes[j]? = some resumed ∧
    resumed + coroutineTimedoutUs < ended

/-- What the readings of an evaluation say of the executor, before the comparison of the times. -/
structure Consistent (g : Gauges) (v : Evaluation) : Prop where
  clock_le : ∀ clock, v.clock = some clock → clock ≤ g.nowUs
  tick_le : ∀ tick, v.tick = some tick → v.clock = none → tick ≤ g.nowUs
  le_clock : ∀ clock, v.clock = some clock → v.tick = none → g.tick ≤ clock
  no_wrap : ∀ clock tick, v.clock = some clock → v.tick = some tick → tick ≤ clock
  unread : v.tick = none → v.switchCnt = none ∧ v.switchedCnt = none
  /-- A value of `m_tick` that is not stale is the time of its `Resume`, which is still to be
  called if it is the last one stored. -/
  fresh : v.result = none → ¬v.Stale → ∀ tick, v.tick = some tick →
    g.resumes[v.stamps - 1]? = some tick ∨
      v.stamps = g.resumes.length + 1 ∧ tick = g.nowUs
  /-- Beside a stale one, a counter that has been read shows that no iteration is under way. -/
  stale : v.result = none → v.Stale → ∀ cnt, v.switchCnt = some cnt ∨ v.switchedCnt = some cnt →
    g.switchCnt = cnt ∧ g.switchedCnt = cnt
  founded : ∀ ended, v.result = some (true, ended) → v.Founded g ended

/-- Consistent readings, and an evaluation that goes on only if the time has been exceeded. -/
structure Sound (g : Gauges) (v : Evaluation) : Prop extends Consistent g v where
  elapsed : v.result = none → ∀ clock tick, v.clock = some clock → v.tick = some tick →
    tick + coroutineTimedoutUs < clock

variable {g : Gauges} {v : Evaluation}

/-! ### The executor moves -/

lemma Sound.count (h : v.Sound g)
    (hC : v.result = none → v.Stale → v.switchCnt = none ∧ v.switchedCnt = none) :
    v.Sound { g with switchCnt := g.switchCnt + 1 } :=
  { h with
    stale := fun hr hst cnt hcnt => by
      obtain ⟨h₁, h₂⟩ := hC hr hst
      simp [h₁, h₂] at hcnt }

lemma Sound.stamp (h : v.Sound g)
    (hC : ∀ clock, v.clock = some clock → v.tick = none → g.nowUs ≤ clock) :
    v.Sound { g with tick := g.nowUs, stamps := g.stamps + 1 } :=
  { h with le_clock := hC }

lemma Sound.resumed (h : v.Sound g) : v.Sound { g with resumes := g.resumes ++ [g.nowUs] } :=
  { h with
    fresh := fun hr hst tick htick => by
      left
      obtain hres | ⟨hlen, rfl⟩ := h.fresh hr hst tick htick
      · exact List.getElem?_append_left (List.getElem?_eq_some_iff.mp hres).1 ▸ hres
      · simp [hlen]
    founded := fun ended hr => by
      obtain ⟨j, t, hj, ht, hlt⟩ := h.founded ended hr
      exact ⟨j, t, hj, List.getElem?_append_left (List.getElem?_eq_some_iff.mp ht).1 ▸ ht, hlt⟩ }

lemma Sound.counted (h : v.Sound g) (hne : g.switchCnt ≠ g.switchedCnt) :
    v.Sound { g with switchedCnt := g.switchedCnt + 1 } :=
  { h with
    stale := fun hr hst cnt hcnt => by
      obtain ⟨h₁, h₂⟩ := h.stale hr hst cnt hcnt
      exact absurd (h₁.trans h₂.symm) hne }

lemma Sound.elapse {us : ℕ} (h : v.Sound g)
    (hC : us ≠ 0 → v.result = none → ¬v.Stale → v.stamps ≤ g.resumes.length) :
    v.Sound { g with nowUs := g.nowUs + us } :=
  { h with
    clock_le := fun clock hclock => Nat.le_add_right_of_le (h.clock_le clock hclock)
    tick_le := fun tick htick hclock => Nat.le_add_right_of_le (h.tick_le tick htick hclock)
    fresh := fun hr hst tick htick => by
      by_cases hus : us = 0
      · simpa [hus] using h.fresh hr hst tick htick
      · refine (h.fresh hr hst tick htick).imp_right fun hlast => ?_
        have hle := hC hus hr hst
        omega }

/-! ### The evaluation reads -/

lemma compareElapsed_cases (nowUs : ℕ) (v : Evaluation) :
    (v.compareElapsed nowUs = v ∧ ∀ clock tick, v.clock = some clock → v.tick = some tick →
      coroutineTimedoutUs < wrapSub clock tick) ∨
    v.compareElapsed nowUs = { v with result := some (false, nowUs) } := by
  unfold compareElapsed
  split
  next clock tick hclock htick =>
    split
    next hlt =>
      left
      refine ⟨rfl, ?_⟩
      simp_all
    next => exact .inr rfl
  next hnone =>
    left
    exact ⟨rfl, fun clock tick hclock htick => absurd htick (hnone clock tick hclock)⟩

@[simp] lemma compareElapsed_clock (nowUs : ℕ) (v : Evaluation) :
    (v.compareElapsed nowUs).clock = v.clock := by
  obtain ⟨heq, -⟩ | heq := compareElapsed_cases nowUs v <;> rw [heq]

@[simp] lemma compareElapsed_tick (nowUs : ℕ) (v : Evaluation) :
    (v.compareElapsed nowUs).tick = v.tick := by
  obtain ⟨heq, -⟩ | heq := compareElapsed_cases nowUs v <;> rw [heq]

/-- Where it has not ended, the comparison of the times was true. -/
lemma Consistent.compareElapsed (h : v.Consistent g) : (v.compareElapsed g.nowUs).Sound g := by
  obtain ⟨heq, hlt⟩ | heq := compareElapsed_cases g.nowUs v
  · rw [heq]
    refine ⟨h, fun _ clock tick hclock htick => ?_⟩
    have hle := h.no_wrap clock tick hclock htick
    have hsub := hlt clock tick hclock htick
    rw [wrapSub_of_le hle] at hsub
    omega
  · rw [heq]
    exact { h with
      fresh := fun hr => by cases hr
      stale := fun hr => by cases hr
      founded := fun _ hr => by cases hr
      elapsed := fun hr => by cases hr }

lemma Sound.begin (returned : ℕ) : Sound g { returnedBefore := returned } := by
  constructor
  · constructor <;> simp
  · simp

lemma Sound.readClock (h : v.Sound g) (hnone : v.clock = none) (htick : g.tick ≤ g.nowUs) :
    ({ v with clock := some g.nowUs }.compareElapsed g.nowUs).Sound g :=
  Consistent.compareElapsed
    { h.toConsistent with
      clock_le := by simp
      tick_le := by simp
      le_clock := by simpa using fun _ => htick
      no_wrap := fun clock tick hclock ht => by
        obtain rfl : g.nowUs = clock := by simpa using hclock
        exact h.tick_le tick ht hnone }

lemma Sound.readTick (h : v.Sound g) (hnone : v.tick = none) (htick : g.tick ≤ g.nowUs)
    (hstamps : g.stamps ≤ g.resumes.length + 1)
    (hC : v.returnedBefore < g.stamps → g.tick = g.resumes[g.stamps - 1]?.getD g.nowUs) :
    ({ v with tick := some g.tick, stamps := g.stamps }.compareElapsed g.nowUs).Sound g :=
  Consistent.compareElapsed
    { h.toConsistent with
      tick_le := by simpa using fun _ => htick
      le_clock := by simp
      no_wrap := fun clock tick hclock ht => by
        obtain rfl : g.tick = tick := by simpa using ht
        exact h.le_clock clock hclock hnone
      unread := by simp
      fresh := fun _ hst tick ht => by
        obtain rfl : g.tick = tick := by simpa using ht
        have hlt : v.returnedBefore < g.stamps := Nat.lt_of_not_le hst
        have heq := hC hlt
        cases hres : g.resumes[g.stamps - 1]? with
        | some resumed => exact .inl (by simp [heq, hres])
        | none =>
          have hlen := List.getElem?_eq_none_iff.mp hres
          exact .inr ⟨by dsimp only; omega, by simp [heq, hres]⟩
      stale := fun _ _ cnt hread => by simp [h.unread hnone] at hread }

lemma compareCounts_cases (nowUs : ℕ) (v : Evaluation) :
    v.compareCounts nowUs = v ∨ ∃ switchCnt switchedCnt, v.switchCnt = some switchCnt ∧
      v.switchedCnt = some switchedCnt ∧ v.compareCounts nowUs =
        { v with result := some (decide (switchCnt ≠ switchedCnt), nowUs) } := by
  unfold compareCounts
  split
  next switchCnt switchedCnt h₁ h₂ => exact .inr ⟨switchCnt, switchedCnt, h₁, h₂, rfl⟩
  next => exact .inl rfl

/-- A value of `m_tick` that is not stale is over the time with its `Resume`; beside a stale one the
counters are equal. -/
lemma Sound.compareCounts (h : v.Sound g) (hr : v.result = none) (hclock : v.clock.isSome)
    (htick : v.tick.isSome) : (v.compareCounts g.nowUs).Sound g := by
  obtain heq | ⟨switchCnt, switchedCnt, h₁, h₂, heq⟩ := compareCounts_cases g.nowUs v
  · rw [heq]
    exact h
  obtain ⟨clock, hclock⟩ := Option.isSome_iff_exists.mp hclock
  obtain ⟨tick, htick⟩ := Option.isSome_iff_exists.mp htick
  rw [heq]
  refine { h with
    fresh := fun hr => by cases hr
    stale := fun hr => by cases hr
    elapsed := fun hr => by cases hr
    founded := fun ended hend => ?_ }
  obtain ⟨hne, rfl⟩ : switchCnt ≠ switchedCnt ∧ g.nowUs = ended := by simpa using hend
  by_cases hst : v.Stale
  · have hcnt := (h.stale hr hst switchCnt (.inl h₁)).1
    have hcnt' := (h.stale hr hst switchedCnt (.inr h₂)).1
    exact absurd (hcnt.symm.trans hcnt') hne
  · have hover := h.elapsed hr clock tick hclock htick
    have hle := h.clock_le clock hclock
    obtain hres | ⟨-, hnow⟩ := h.fresh hr hst tick htick
    · have hj : v.returnedBefore ≤ v.stamps - 1 := by
        simp only [Stale, Nat.not_le] at hst
        omega
      exact ⟨v.stamps - 1, tick, hj, hres, by omega⟩
    · omega

lemma Sound.readCount (h : v.Sound g) {v' : Evaluation} (hel : v.elapsed = true)
    (hcnt : v' = { v with switchCnt := some g.switchCnt } ∨
      v' = { v with switchedCnt := some g.switchedCnt })
    (hC : v.Stale → g.switchCnt = g.switchedCnt) :
    (v'.compareCounts g.nowUs).Sound g := by
  simp only [Evaluation.elapsed, Bool.and_eq_true, Option.isNone_iff_eq_none] at hel
  obtain ⟨⟨hclock, htick⟩, hr⟩ := hel
  have hv' : v'.Sound g := by
    rcases hcnt with rfl | rfl
    · exact { h with
        unread := fun (hnone : v.tick = none) => by simp [hnone] at htick
        stale := fun _ hst cnt hread => by
          rcases hread with hread | hread
          · obtain rfl : g.switchCnt = cnt := by simpa using hread
            exact ⟨rfl, (hC hst).symm⟩
          · exact h.stale hr hst cnt (.inr hread) }
    · exact { h with
        unread := fun (hnone : v.tick = none) => by simp [hnone] at htick
        stale := fun _ hst cnt hread => by
          rcases hread with hread | hread
          · exact h.stale hr hst cnt (.inl hread)
          · obtain rfl : g.switchedCnt = cnt := by simpa using hread
            exact ⟨hC hst, rfl⟩ }
  rcases hcnt with rfl | rfl <;> exact hv'.compareCounts hr hclock htick

end Evaluation

/-! ## The guarantee -/

namespace LoopState

variable {s s' : LoopState} {a : LoopAct}

/-- The clock is past `m_tick`, and every evaluation is sound. -/
structure Measured (s : LoopState) : Prop where
  tick_le : s.ex.tick ≤ s.nowUs
  sound : ∀ v ev, s.evaluations v = some ev → ev.Sound s.gauges

/-- One evaluation changes, the others stay. -/
lemma sound_setEvaluation {v : ℕ} {ev : Evaluation}
    (hs : ∀ v ev, s.evaluations v = some ev → ev.Sound s.gauges) (hev : ev.Sound s.gauges) :
    ∀ v' ev', (s.setEvaluation v ev).evaluations v' = some ev' →
      ev'.Sound (s.setEvaluation v ev).gauges := by
  intro v' ev' hv'
  by_cases heq : v' = v
  · subst heq
    obtain rfl : ev = ev' := by simpa [setEvaluation] using hv'
    exact hev
  · exact hs v' ev' (by simpa [setEvaluation, heq] using hv')

lemma Effect.measured (h : Effect s a s') (htally : s.Tallied) (hs : s.Measured)
    (hC : s.Undisturbed a) : s'.Measured := by
  obtain ⟨htick, hsound⟩ := hs
  cases h with
  | assign hpc h => cases h <;> exact ⟨htick, hsound⟩
  | count ha hpc =>
    obtain ⟨nowMs, rfl⟩ := ha
    exact ⟨htick, fun v ev hv => (hsound v ev hv).count ((hC v ev hv).2 hpc)⟩
  | stamp ha hpc =>
    obtain ⟨nowMs, rfl⟩ := ha
    exact ⟨Nat.le_refl _, fun v ev hv => (hsound v ev hv).stamp ((hC v ev hv).1 hpc)⟩
  | resumeOver => exact ⟨htick, fun v ev hv => (hsound v ev hv).resumed⟩
  | resume => exact ⟨htick, fun v ev hv => (hsound v ev hv).resumed⟩
  | counted hpc => exact ⟨htick, fun v ev hv => (hsound v ev hv).counted (htally.counts_ne hpc)⟩
  | elapse ha =>
    subst ha
    exact ⟨Nat.le_add_right_of_le htick,
      fun v ev hv => (hsound v ev hv).elapse fun hus => hC hus v ev hv⟩
  | isBlocking => exact ⟨htick, sound_setEvaluation hsound (.begin _)⟩
  | readClock _ hv hnone =>
    exact ⟨htick, sound_setEvaluation hsound ((hsound _ _ hv).readClock hnone htick)⟩
  | readTick ha hv hnone =>
    subst ha
    exact ⟨htick, sound_setEvaluation hsound
      ((hsound _ _ hv).readTick hnone htick htally.stamps_le (hC _ hv))⟩
  | readSwitchCnt ha hv hel =>
    subst ha
    exact ⟨htick, sound_setEvaluation hsound ((hsound _ _ hv).readCount hel (.inl rfl) (hC _ hv))⟩
  | readSwitchedCnt ha hv hel =>
    subst ha
    exact ⟨htick, sound_setEvaluation hsound ((hsound _ _ hv).readCount hel (.inr rfl) (hC _ hv))⟩
  | _ => exact ⟨htick, hsound⟩

/-- The only evaluation is `0`, and it is made while the thread and the clock stand still. -/
def alone (s : LoopState) : LoopAct → Bool
  | .thread _ | .elapse _ => s.evaluations 0 = none
  | .isBlocking v | .readClock v => v = 0
  | .readTick v => v = 0 ∧ s.ex.tick = s.resumes[s.stamps - 1]?.getD s.nowUs
  | .readSwitchCnt v | .readSwitchedCnt v =>
    v = 0 ∧ (s.evaluations v).all fun ev => ev.returnedBefore < ev.stamps
  | _ => true

lemma undisturbed_of_alone (hs : ∀ v, v ≠ 0 → s.evaluations v = none) (h : s.alone a = true) :
    s.Undisturbed a := by
  have hnone : s.evaluations 0 = none → ∀ v ev, s.evaluations v ≠ some ev := by
    intro h v ev hv
    by_cases h0 : v = 0
    · simp [h0, h] at hv
    · simp [hs v h0] at hv
  cases a with
  | thread nowMs => exact fun v ev hv => absurd hv (hnone (by simpa [alone] using h) v ev)
  | elapse us => exact fun _ v ev hv => absurd hv (hnone (by simpa [alone] using h) v ev)
  | readTick v =>
    intro ev _ _
    simp only [alone, decide_eq_true_eq] at h
    exact h.2
  | readSwitchCnt v | readSwitchedCnt v =>
    intro ev hv hst
    simp only [alone, hv, Option.all_some, decide_eq_true_eq] at h
    exact absurd hst (Nat.not_le_of_lt h.2)
  | _ => trivial

lemma reachable_undisturbed_of_alone
    (h : loopSystem.ReachableUnder (fun s a => s.alone a = true) s) :
    loopSystem.ReachableUnder Undisturbed s := by
  refine h.mono (I := fun s => ∀ v, v ≠ 0 → s.evaluations v = none) ?_ ?_ ?_
  · rintro s ⟨id, nowUs, rfl⟩ v -
    rfl
  · intro s a s' hs halone hstep v hv
    rw [(step_effect hstep).evaluations_of_ne fun ha => hv ?_]
    · exact hs v hv
    · cases a <;> simp_all [alone, LoopAct.evaluation?]
  · exact fun s a hs halone => undisturbed_of_alone hs halone

/-- **When `IsBlocking` can be relied on.**  In every run in which no step comes between readings
that belong together, an evaluation of `IsBlocking` that is true was begun while a `Resume` had not
returned that was called more than `COROUTINE_TIMEDOUT_US` before the evaluation ended; and the
subtraction never wraps. -/
theorem isBlocking_no_false_alarm (h : loopSystem.ReachableUnder Undisturbed s) :
    s.NoFalseAlarm := by
  have hs : s.Measured := by
    refine h.invariant (I := Measured) ?_ fun s a s' hreach hs hC hstep =>
      (step_effect hstep).measured (reachable_tallied hreach) hs hC
    rintro s ⟨id, nowUs, rfl⟩
    exact ⟨Nat.zero_le _, fun v ev hv => by cases hv⟩
  intro v ev hv
  have hsound := hs.sound v ev hv
  exact ⟨hsound.founded, hsound.no_wrap⟩

/-- A coroutine that runs for too long, and one evaluation that begins and ends meanwhile. -/
theorem isBlocking_no_false_alarm_overrun :
    ∃ s, loopSystem.ReachableUnder Undisturbed s ∧ s.resumes = [0] ∧
      (s.evaluations 0).map (fun ev => ev.result) =
        some (some (true, coroutineTimedoutUs + 1)) ∧ s.NoFalseAlarm := by
  obtain ⟨s, hs, hp⟩ := exists_reachable_of_runUnder (G := fun s a => alone s a = true)
    (M := loopSystem)
    (List.flatten [[.addTask 0 1], List.replicate 3 (.client 0), [.process 0],
      List.replicate 6 (.thread 0),
      [.elapse (coroutineTimedoutUs + 1), .isBlocking 0, .readClock 0, .readTick 0,
        .readSwitchCnt 0, .readSwitchedCnt 0]])
    (fun s => s.resumes = [0] && (s.evaluations 0).map (fun ev => ev.result) =
      some (some (true, coroutineTimedoutUs + 1))) ⟨0, 0, rfl⟩ (by decide)
  simp only [Bool.and_eq_true, decide_eq_true_eq] at hp
  have hquiet := reachable_undisturbed_of_alone hs
  exact ⟨s, hquiet, hp.1, hp.2, isBlocking_no_false_alarm hquiet⟩

/-- Reading an `m_tick` that is later than the clock that was read makes the subtraction wrap. -/
lemma readTick_wraps {v clock : ℕ} {ev : Evaluation} (hfault : s.fault = none)
    (hv : s.evaluations v = some ev) (hclock : ev.clock = some clock) (hnone : ev.tick = none)
    (hlt : clock < s.ex.tick) : ∃ s', s.step (.readTick v) = some s' ∧ ¬s'.NoFalseAlarm := by
  refine ⟨_, by simp [step, act, readOperand, hfault, hv, hnone]; rfl, fun hn => ?_⟩
  have hle := (hn v _ (Function.update_self ..)).2 clock s.ex.tick (by simp [hclock]) (by simp)
  omega

/-- **The condition on the store of `m_tick` is tight.**  After a step that violates it, the reading
of `m_tick` makes the subtraction wrap. -/
theorem wraps_of_stamp {v nowMs clock : ℕ} {ev : Evaluation} (h : s.step (.thread nowMs) = some s')
    (hpc : s.pc = .stamp) (hv : s.evaluations v = some ev) (hclock : ev.clock = some clock)
    (hnone : ev.tick = none) (hlt : clock < s.nowUs) :
    ∃ s'', s'.step (.readTick v) = some s'' ∧ ¬s''.NoFalseAlarm := by
  obtain ⟨hfault, h⟩ := Option.ite_none_left_eq_some.mp h
  simp only [act, threadStep, hpc, Option.some.injEq] at h
  subst h
  apply readTick_wraps
  · simpa using hfault
  · exact hv
  · exact hclock
  · exact hnone
  · exact hlt

/-- A switch is counted before its time is stored, so that an executor that has never resumed a
coroutine is reported as blocking; and the clock may be read before a later time is stored, so that
the subtraction wraps. -/
theorem isBlocking_false_alarm :
    (∃ s, loopSystem.Reachable s ∧ ¬s.NoFalseAlarm ∧ s.resumes = [] ∧
      (s.evaluations 0).map (fun ev => ev.result) =
        some (some (true, coroutineTimedoutUs + 1))) ∧
    ∃ s, loopSystem.Reachable s ∧ ¬s.NoFalseAlarm ∧ s.resumes = [1] ∧
      (s.evaluations 0).map (fun ev => (ev.clock, ev.tick, ev.result)) =
        some (some 0, some 1, some (true, 1)) := by
  constructor
  · obtain ⟨s, hs, hp⟩ := exists_reachable_of_runUnder (G := fun _ _ => True) (M := loopSystem)
      (List.flatten [[.addTask 0 1], List.replicate 3 (.client 0), [.process 0],
        List.replicate 4 (.thread 0),
        [.isBlocking 0, .readClock 0, .readTick 0, .readSwitchCnt 0, .readSwitchedCnt 0]])
      (fun s => s.resumes = [] && (s.evaluations 0).map (fun ev => ev.result) =
        some (some (true, coroutineTimedoutUs + 1))) ⟨0, coroutineTimedoutUs + 1, rfl⟩ (by decide)
    simp only [Bool.and_eq_true, decide_eq_true_eq] at hp
    obtain ⟨hres, hev⟩ := hp
    refine ⟨s, hs, fun hn => ?_, hres, hev⟩
    obtain ⟨ev, hv, hr⟩ := Option.map_eq_some_iff.mp hev
    obtain ⟨j, t, -, ht, -⟩ := (hn 0 ev hv).1 _ hr
    simp [hres] at ht
  · obtain ⟨s, hs, hp⟩ := exists_reachable_of_runUnder (G := fun _ _ => True) (M := loopSystem)
      (List.flatten [[.addTask 0 1], List.replicate 3 (.client 0), [.process 0],
        List.replicate 4 (.thread 0),
        [.isBlocking 0, .readClock 0, .elapse 1, .thread 0, .readTick 0, .thread 0,
          .readSwitchCnt 0, .readSwitchedCnt 0]])
      (fun s => s.resumes = [1] &&
        (s.evaluations 0).map (fun ev => (ev.clock, ev.tick, ev.result)) =
          some (some 0, some 1, some (true, 1))) ⟨0, 0, rfl⟩ (by decide)
    simp only [Bool.and_eq_true, decide_eq_true_eq] at hp
    obtain ⟨hres, hev⟩ := hp
    refine ⟨s, hs, fun hn => ?_, hres, hev⟩
    obtain ⟨ev, hv, hr⟩ := Option.map_eq_some_iff.mp hev
    simp only [Prod.mk.injEq] at hr
    have hle := (hn 0 ev hv).2 0 1 hr.1 hr.2.1
    omega

end LoopState

end CoroutineCpp
