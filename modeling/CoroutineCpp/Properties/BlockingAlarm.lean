import CoroutineCpp.Properties.Blocking

/-!
# `IsBlocking` misses no coroutine that blocks

The other side of `Properties/Blocking.lean`, and without a condition on the run.  Where a coroutine
has been running for more than `COROUTINE_TIMEDOUT_US` (`Overrun`), an evaluation of `IsBlocking`
that begins then cannot be false before that coroutine has left the CPU, in whatever order its four
readings are made and however they interleave with the other threads.  While the coroutine runs,
`Process` touches none of the members that are read, so the readings agree (`Alarming`).
-/

namespace CoroutineCpp

open Framework TransitionSystem

/-- What the readings of an evaluation are beside a coroutine that runs for too long. -/
structure Evaluation.Alarming (s : LoopState) (v : Evaluation) : Prop where
  clock : ∀ clock, v.clock = some clock → s.ex.tick + coroutineTimedoutUs < clock
  tick : ∀ tick, v.tick = some tick → tick = s.ex.tick
  switchCnt : ∀ cnt, v.switchCnt = some cnt → cnt = s.ex.switchCnt
  switchedCnt : ∀ cnt, v.switchedCnt = some cnt → cnt = s.ex.switchedCnt
  result : ∀ blocking ended, v.result = some (blocking, ended) → blocking = true

namespace LoopState

variable {s s' : LoopState} {a : LoopAct} {v : ℕ}

/-- A coroutine is on the CPU. -/
def OnCpu (s : LoopState) : Prop := s.pc = .inside ∨ s.pc = .holding

/-- A coroutine is on the CPU that was resumed more than `COROUTINE_TIMEDOUT_US` ago. -/
structure Overrun (s : LoopState) : Prop where
  onCpu : s.OnCpu
  elapsed : ∃ resumed, s.resumes.getLast? = some resumed ∧ resumed + coroutineTimedoutUs < s.nowUs

/-! ## The time in `m_tick` -/

/-- `m_tick` is in the past, and not later than the call of `Resume` it was stored for. -/
structure Stamped (s : LoopState) : Prop where
  tick_le : s.ex.tick ≤ s.nowUs
  resumed : s.OnCpu → ∀ resumed, s.resumes.getLast? = some resumed → s.ex.tick ≤ resumed

lemma not_onCpu {pc : LoopPc} (h : s.pc = pc) (hin : pc ≠ .inside) (hhold : pc ≠ .holding) :
    ¬ s.OnCpu := by
  rintro (hpc | hpc)
  · exact hin (h.symm.trans hpc)
  · exact hhold (h.symm.trans hpc)

lemma ThreadMove.not_onCpu {pc pc' : LoopPc} (h : ThreadMove s pc pc') :
    (pc ≠ .inside ∧ pc ≠ .holding) ∧ pc' ≠ .inside ∧ pc' ≠ .holding := by
  cases h <;> simp

lemma notifyAll_onCpu {pc : LoopPc} :
    (notifyAll pc = .inside ∨ notifyAll pc = .holding) ↔ (pc = .inside ∨ pc = .holding) := by
  cases pc <;> simp [notifyAll]

lemma Effect.stamped (h : Effect s a s') (hs : s.Stamped) : s'.Stamped := by
  have hoff : s'.ex.tick ≤ s'.nowUs → ∀ pc, s'.pc = pc → pc ≠ .inside → pc ≠ .holding →
      s'.Stamped := fun htick pc hpc hin hhold =>
    ⟨htick, fun hcpu => absurd hcpu (not_onCpu hpc hin hhold)⟩
  cases h with
  | enter | count | resumeOver | counted | held | finished | thrown | gc | setWaiting | timedOut
  | leave | idleClean | switchOut => exact hoff hs.tick_le _ rfl (by simp) (by simp)
  | threadMove h => exact hoff hs.tick_le _ rfl h.not_onCpu.2.1 h.not_onCpu.2.2
  | assign _ h => cases h <;> exact hoff hs.tick_le _ rfl (by simp) (by simp)
  | stamp => exact hoff (Nat.le_refl _) _ rfl (by simp) (by simp)
  | resume =>
    refine ⟨hs.tick_le, fun _ resumed h => ?_⟩
    obtain rfl : s.nowUs = resumed := by simpa using h
    exact hs.tick_le
  | holdPush hpc => exact ⟨hs.tick_le, fun _ => hs.resumed (.inl hpc)⟩
  | notify => exact ⟨hs.tick_le, fun hcpu => hs.resumed (notifyAll_onCpu.mp hcpu)⟩
  | elapse => exact ⟨Nat.le_add_right_of_le hs.tick_le, hs.resumed⟩
  | _ => exact ⟨hs.tick_le, hs.resumed⟩

lemma reachable_stamped {G : LoopState → LoopAct → Prop} (h : loopSystem.ReachableUnder G s) :
    s.Stamped := by
  apply effect_invariant (I := Stamped) _ _ h
  · exact fun id nowUs => ⟨Nat.zero_le _, fun hcpu => by simp [OnCpu] at hcpu⟩
  · exact fun s a s' hs h => h.stamped hs

/-! ## While the coroutine runs -/

/-- What stands still while the coroutine that runs stays on the CPU. -/
structure Frame (s s' : LoopState) : Prop where
  onCpu : s'.OnCpu
  tick : s'.ex.tick = s.ex.tick
  switchCnt : s'.ex.switchCnt = s.ex.switchCnt
  switchedCnt : s'.ex.switchedCnt = s.ex.switchedCnt
  nowUs : s.nowUs ≤ s'.nowUs

lemma Effect.returned_le (h : Effect s a s') : s.returned ≤ s'.returned := by
  cases h with
  | resumeOver | switchOut => exact Nat.le_succ _
  | _ => exact Nat.le_refl _

/-- The running coroutine leaves the CPU only by a `Resume` that returns, and before that nothing
is stored that `IsBlocking` reads. -/
lemma Effect.frame (h : Effect s a s') (hcpu : s.OnCpu) (hret : s'.returned = s.returned) :
    s.Frame s' := by
  have hoff : ∀ {pc}, s.pc = pc → pc ≠ .inside → pc ≠ .holding → s.Frame s' :=
    fun hpc hin hhold => absurd hcpu (not_onCpu hpc hin hhold)
  cases h with
  | enter _ hpc | assign hpc | count _ hpc | stamp _ hpc | resumeOver hpc | resume hpc
  | counted hpc | held hpc | finished hpc | thrown _ hpc | gc _ hpc | setWaiting hpc
  | timedOut hpc | leave hpc | idleClean hpc => exact hoff hpc (by simp) (by simp)
  | threadMove h => exact hoff rfl h.not_onCpu.1.1 h.not_onCpu.1.2
  | switchOut => simp at hret
  | holdPush => exact ⟨.inr rfl, rfl, rfl, rfl, Nat.le_refl _⟩
  | notify => exact ⟨notifyAll_onCpu.mpr hcpu, rfl, rfl, rfl, Nat.le_refl _⟩
  | elapse => exact ⟨hcpu, rfl, rfl, rfl, Nat.le_add_right _ _⟩
  | _ => exact ⟨hcpu, rfl, rfl, rfl, Nat.le_refl _⟩

lemma Tallied.counts_ne_of_onCpu (h : s.Tallied) (hcpu : s.OnCpu) :
    s.ex.switchCnt ≠ s.ex.switchedCnt := by
  rcases hcpu with hpc | hpc
  · simp only [Tallied, hpc] at h
    omega
  · simp only [Tallied, hpc] at h
    omega

end LoopState

open LoopState

/-! ## What is read meanwhile -/

namespace Evaluation

variable {s s' : LoopState} {v : Evaluation}

lemma Alarming.of_frame (h : v.Alarming s) (hf : s.Frame s') : v.Alarming s' where
  clock clock hclock := by
    rw [hf.tick]
    exact h.clock clock hclock
  tick tick htick := by
    rw [hf.tick]
    exact h.tick tick htick
  switchCnt cnt hcnt := by
    rw [hf.switchCnt]
    exact h.switchCnt cnt hcnt
  switchedCnt cnt hcnt := by
    rw [hf.switchedCnt]
    exact h.switchedCnt cnt hcnt
  result := h.result

lemma Alarming.begin (returned : ℕ) : Alarming s { returnedBefore := returned } := by
  constructor <;> simp

/-- The comparison of the times is true. -/
lemma Alarming.compareElapsed (h : v.Alarming s) (nowUs : ℕ) :
    v.compareElapsed nowUs = v := by
  unfold Evaluation.compareElapsed
  split
  next clock tick hclock htick =>
    have hlt := h.clock clock hclock
    obtain rfl := h.tick tick htick
    have hle : s.ex.tick ≤ clock := by omega
    rw [if_pos]
    rw [wrapSub_of_le hle]
    omega
  next => rfl

/-- The comparison of the counters is true. -/
lemma Alarming.compareCounts (h : v.Alarming s) (hne : s.ex.switchCnt ≠ s.ex.switchedCnt)
    (nowUs : ℕ) : (v.compareCounts nowUs).Alarming s := by
  unfold Evaluation.compareCounts
  split
  next switchCnt switchedCnt h₁ h₂ =>
    obtain rfl := h.switchCnt switchCnt h₁
    obtain rfl := h.switchedCnt switchedCnt h₂
    refine { h with result := fun blocking ended hres => ?_ }
    simp only [Option.some.injEq, Prod.mk.injEq] at hres
    rw [← hres.1]
    exact decide_eq_true hne
  next => exact h

lemma Alarming.readClock (h : v.Alarming s) (hnow : s.ex.tick + coroutineTimedoutUs < s.nowUs) :
    ({ v with clock := some s.nowUs }.compareElapsed s.nowUs).Alarming s := by
  have hread : Alarming s { v with clock := some s.nowUs } :=
    { h with clock := by simpa using hnow }
  rwa [hread.compareElapsed]

lemma Alarming.readTick (h : v.Alarming s) (stamps : ℕ) :
    ({ v with tick := some s.ex.tick, stamps := stamps }.compareElapsed s.nowUs).Alarming s := by
  have hread : Alarming s { v with tick := some s.ex.tick, stamps := stamps } :=
    { h with tick := by simp }
  rwa [hread.compareElapsed]

lemma Alarming.readSwitchCnt (h : v.Alarming s) (hne : s.ex.switchCnt ≠ s.ex.switchedCnt) :
    ({ v with switchCnt := some s.ex.switchCnt }.compareCounts s.nowUs).Alarming s := by
  have hread : Alarming s { v with switchCnt := some s.ex.switchCnt } :=
    { h with switchCnt := by simp }
  exact hread.compareCounts hne _

lemma Alarming.readSwitchedCnt (h : v.Alarming s) (hne : s.ex.switchCnt ≠ s.ex.switchedCnt) :
    ({ v with switchedCnt := some s.ex.switchedCnt }.compareCounts s.nowUs).Alarming s := by
  have hread : Alarming s { v with switchedCnt := some s.ex.switchedCnt } :=
    { h with switchedCnt := by simp }
  exact hread.compareCounts hne _

end Evaluation

namespace LoopState

variable {s s' s₀ : LoopState} {a : LoopAct} {v : ℕ}

/-- A step made while the coroutine runs. -/
lemma Effect.alarming (h : Effect s a s') (hf : s.Frame s')
    (hnow : s.ex.tick + coroutineTimedoutUs < s.nowUs)
    (hne : s.ex.switchCnt ≠ s.ex.switchedCnt)
    (hs : ∀ ev, s.evaluations v = some ev → ev.Alarming s) {ev : Evaluation}
    (hev : s'.evaluations v = some ev) : ev.Alarming s' := by
  have hset : ∀ {v' ev'}, (v' = v → ev'.Alarming s) →
      (s.setEvaluation v' ev').evaluations v = some ev → ev.Alarming s := by
    intro v' ev' hev' hev
    by_cases heq : v' = v
    · obtain rfl : ev' = ev := by simpa [setEvaluation, heq] using hev
      exact hev' heq
    · exact hs ev (by simpa [setEvaluation, Ne.symm heq] using hev)
  refine Evaluation.Alarming.of_frame ?_ hf
  cases h with
  | isBlocking => exact hset (fun _ => .begin _) hev
  | readClock _ hv => exact hset (fun heq => (hs _ (heq ▸ hv)).readClock hnow) hev
  | readTick _ hv => exact hset (fun heq => (hs _ (heq ▸ hv)).readTick _) hev
  | readSwitchCnt _ hv => exact hset (fun heq => (hs _ (heq ▸ hv)).readSwitchCnt hne) hev
  | readSwitchedCnt _ hv => exact hset (fun heq => (hs _ (heq ▸ hv)).readSwitchedCnt hne) hev
  | _ => exact hs ev hev

/-- The run since the coroutine had been running for too long, up to the return of its `Resume`. -/
structure Watched (s₀ : LoopState) (v : ℕ) (s : LoopState) : Prop where
  returned : s₀.returned ≤ s.returned
  onCpu : s.returned = s₀.returned → s.OnCpu
  elapsed : s.returned = s₀.returned → s.ex.tick + coroutineTimedoutUs < s.nowUs
  alarming : s.returned = s₀.returned → ∀ ev, s.evaluations v = some ev → ev.Alarming s

lemma Effect.watched (h : Effect s a s') (htally : s.Tallied) (hs : s₀.Watched v s) :
    s₀.Watched v s' := by
  have hle := hs.returned
  have hle' := h.returned_le
  have hsame : s'.returned = s₀.returned → s.returned = s₀.returned := fun _ => by omega
  have hframe : s'.returned = s₀.returned → s.Frame s' := fun hret =>
    h.frame (hs.onCpu (hsame hret)) (by omega)
  refine ⟨Nat.le_trans hle hle', fun hret => (hframe hret).onCpu, fun hret => ?_, fun hret ev => ?_⟩
  · have helapsed := hs.elapsed (hsame hret)
    have hnow := (hframe hret).nowUs
    rw [(hframe hret).tick]
    omega
  · exact h.alarming (hframe hret) (hs.elapsed (hsame hret))
      (htally.counts_ne_of_onCpu (hs.onCpu (hsame hret))) (hs.alarming (hsame hret))

lemma Overrun.watched (hs : s.Overrun) (h : s.Stamped) (hnone : s.evaluations v = none) :
    s.Watched v s := by
  obtain ⟨resumed, hlast, hlt⟩ := hs.elapsed
  have htick := h.resumed hs.onCpu resumed hlast
  refine ⟨Nat.le_refl _, fun _ => hs.onCpu, fun _ => by omega, fun _ ev hev => ?_⟩
  simp [hnone] at hev

/-- **`IsBlocking` misses no coroutine that blocks.**  An evaluation that begins while a coroutine
has been on the CPU for more than `COROUTINE_TIMEDOUT_US`, and that ends before its `Resume`
returns, is true. -/
theorem isBlocking_no_missed_alarm {ev : Evaluation} {blocking : Bool} {ended : ℕ}
    (h : loopSystem.Reachable s) (hover : s.Overrun) (hnone : s.evaluations v = none)
    (h' : (loopSystem.startAt s).Reachable s') (hstill : s'.returned = s.returned)
    (hev : s'.evaluations v = some ev) (hend : ev.result = some (blocking, ended)) :
    blocking = true := by
  have hwatch : s.Watched v s' := by
    refine h'.invariant_startAt (hover.watched (reachable_stamped h) hnone) ?_
    intro s₁ a s₂ hreach hs _ hstep
    exact (step_effect hstep).watched (reachable_tallied (h.of_startAt hreach)) hs
  exact (hwatch.alarming hstill ev hev).result blocking ended hend

/-- The four readings, with a push, a `Stop` and a microsecond between them, and the operands read
from the right to the left. -/
theorem isBlocking_no_missed_alarm_interleaved :
    ∃ s s' ev blocking ended, loopSystem.Reachable s ∧ s.Overrun ∧
      (loopSystem.startAt s).Reachable s' ∧ s'.evaluations 0 = some ev ∧
      ev.result = some (blocking, ended) ∧ blocking = true := by
  obtain ⟨s, hs, hp⟩ := exists_reachable_of_runUnder (G := fun _ _ => True) (M := loopSystem)
    (List.flatten [[.addTask 0 1], List.replicate 3 (.client 0), [.process 0],
      List.replicate 6 (.thread 0), [.elapse (coroutineTimedoutUs + 1)]])
    (fun s => s.pc = .inside && s.resumes = [0] && s.nowUs = coroutineTimedoutUs + 1 &&
      s.returned = 0 && s.evaluations 0 = none &&
      ((loopSystem.startAt s).runUnder (fun _ _ => True) s
        [.isBlocking 0, .readTick 0, .addTask 0 2, .client 0, .elapse 1, .readClock 0,
          .readSwitchedCnt 0, .stop, .readSwitchCnt 0]).map (fun s' =>
        s'.returned = 0 && ((s'.evaluations 0).bind Evaluation.result).isSome) = some true)
    ⟨0, 0, rfl⟩ (by decide)
  simp only [Bool.and_eq_true, decide_eq_true_eq] at hp
  obtain ⟨⟨⟨⟨⟨hpc, hresumes⟩, hnow⟩, hret⟩, hnone⟩, hrun⟩ := hp
  obtain ⟨s', hs', hp'⟩ := exists_reachable_of_runUnder (M := loopSystem.startAt s) _ _ rfl hrun
  simp only [Bool.and_eq_true, decide_eq_true_eq] at hp'
  obtain ⟨hret', hsome⟩ := hp'
  obtain ⟨⟨blocking, ended⟩, hres⟩ := Option.isSome_iff_exists.mp hsome
  obtain ⟨ev, hev, hend⟩ := Option.bind_eq_some_iff.mp hres
  have hover : s.Overrun := ⟨.inl hpc, 0, by simp [hresumes], by omega⟩
  exact ⟨s, s', ev, blocking, ended, hs, hover, hs', hev, hend,
    isBlocking_no_missed_alarm hs hover hnone hs' (by rw [hret', hret]) hev hend⟩

end LoopState

end CoroutineCpp
