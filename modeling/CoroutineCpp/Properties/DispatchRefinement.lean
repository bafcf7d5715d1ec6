import CoroutineCpp.Properties.DispatchPass
import Mathlib.Logic.Relation

/-!
# A whole pass is a run of its queue operations

`dispatchTasksEqually` computes a pass in one go and `DispatchState.step` one queue operation at a
time.  `dispatchTasksEqually_run` connects the two: run without interference, the operations end
in what the whole pass computes.  What is proved of single operations, under any interference,
therefore holds of whole passes too.
-/

namespace CoroutineCpp

open Relation

/-- One queue operation of a pass that is not interfered with; executor `idx` answers
`IsBlocking()` with `blocking idx`. -/
def PassStep (size : ℕ) (blocking : ℕ → Bool) (p q : DispatchState × Executors) : Prop :=
  p.1.step size (match p.1.pc with | .giveUp idx _ => blocking idx | _ => false) p.2 = some q

namespace DispatchState

variable {size : ℕ} {t : Executors}

/-! ## The point a pass is at does not matter to the loop bodies -/

@[simp] lemma nextLoad_goto (idx : ℕ) (pc : DispatchPc) (d : DispatchState) :
    nextLoad idx { d with pc := pc } = nextLoad idx d := by
  simp only [nextLoad]

@[simp] lemma afterHandOut_goto (pc : DispatchPc) (d : DispatchState) :
    afterHandOut { d with pc := pc } = afterHandOut d := by
  simp only [afterHandOut]

lemma noteLowLoad_goto (idx load : ℕ) (pc : DispatchPc) (d : DispatchState) :
    noteLowLoad idx load { d with pc := pc } = { d.noteLowLoad idx load with pc := pc } := rfl

lemma stealFrom_goto (idx load : ℕ) (b : Bool) (pc : DispatchPc) (d : DispatchState) :
    stealFrom idx load b { d with pc := pc } t =
      ({ (d.stealFrom idx load b t).1 with pc := pc }, (d.stealFrom idx load b t).2) := rfl

lemma handTo_goto (idx last : ℕ) (pc : DispatchPc) (d : DispatchState) :
    handTo idx last { d with pc := pc } t =
      ({ (d.handTo idx last t).1 with pc := pc }, (d.handTo idx last t).2) := rfl

/-! ## The loops -/

/-- The counting loop, from executor `i` on. -/
lemma countLoop_run (blocking : ℕ → Bool) (k i : ℕ) (d : DispatchState) (hk : i + (k + 1) = size)
    (hd : d.executorCount = size) :
    ReflTransGen (PassStep size blocking) ({ d with pc := .countRunnable i }, t)
      (afterCount { d with
        pc := .countWaiting (size - 1)
        totalRunnables := d.totalRunnables +
          ((List.range' i (k + 1)).map fun j => (t j).getRunnableCount).sum
        totalWaitings := d.totalWaitings +
          ((List.range' i (k + 1)).map fun j => (t j).getWaitingCount).sum }, t) := by
  have hi : i < size := by omega
  have hread : PassStep size blocking ({ d with pc := .countRunnable i }, t)
      ({ d with totalRunnables := d.totalRunnables + (t i).getRunnableCount,
                pc := .countWaiting i }, t) := by
    simp [PassStep, step, hi]
  induction k generalizing i d with
  | zero =>
    obtain rfl : size = i + 1 := hk.symm
    refine .head hread (.single ?_)
    simp [PassStep, step, hd]
  | succ k ih =>
    have hi' : i + 1 < size := by omega
    have hnext : PassStep size blocking
        ({ d with totalRunnables := d.totalRunnables + (t i).getRunnableCount,
                  pc := .countWaiting i }, t)
        ({ d with totalRunnables := d.totalRunnables + (t i).getRunnableCount,
                  totalWaitings := d.totalWaitings + (t i).getWaitingCount,
                  pc := .countRunnable (i + 1) }, t) := by
      simp [PassStep, step, hi, hi', hd]
    refine .head hread (.head hnext ?_)
    have hrest := ih (i + 1)
      { d with totalRunnables := d.totalRunnables + (t i).getRunnableCount,
               totalWaitings := d.totalWaitings + (t i).getWaitingCount }
      (by omega) hd hi' (by simp [PassStep, step, hi'])
    rw [List.range'_succ (s := i)]
    simpa [Nat.add_assoc] using hrest

/-- The stealing loop, from executor `idx` on. -/
lemma stealLoop_run (blocking : ℕ → Bool) (k idx : ℕ) (d : DispatchState) (t : Executors)
    (hk : idx + k = size) (hd : d.executorCount = size) :
    let p := stealLoop blocking (List.range' idx k) (d, t)
    ReflTransGen (PassStep size blocking) (d.nextLoad idx, t) (p.1.nextLoad size, p.2) := by
  induction k generalizing idx d t with
  | zero =>
    obtain rfl : idx = size := hk
    exact .refl
  | succ k ih =>
    have hidx : idx < size := by omega
    have hhead : d.nextLoad idx = { d with pc := .readLoad idx } := by
      rw [nextLoad, if_pos (hd ▸ hidx)]
    have hgoto : ∀ load, noteMin idx load { d with pc := .readLoad idx } =
        { d.noteMin idx load with pc := .readLoad idx } := by
      intro load
      simp only [noteMin]
      split_ifs <;> rfl
    have hcount : (d.noteMin idx (t idx).getRunnableCount).executorCount = size := by simp [hd]
    have hread : PassStep size blocking ({ d with pc := .readLoad idx }, t)
        (if (t idx).getRunnableCount > (d.noteMin idx (t idx).getRunnableCount).avgLoad then
          { d.noteMin idx (t idx).getRunnableCount with
            pc := .giveUp idx (t idx).getRunnableCount }
        else ((d.noteMin idx (t idx).getRunnableCount).noteLowLoad idx
          (t idx).getRunnableCount).nextLoad (idx + 1), t) := by
      simp only [PassStep, step, if_pos hidx, hgoto, gt_iff_lt]
      split <;> simp only [noteLowLoad_goto, nextLoad_goto]
    rw [List.range'_succ, hhead]
    simp only [stealLoop]
    generalize d.noteMin idx (t idx).getRunnableCount = d' at hcount hread ⊢
    split
    next hload =>
      -- the executor is a donor: a second operation takes tasks from it
      rw [if_pos hload] at hread
      have hsteal : PassStep size blocking
          ({ d' with pc := .giveUp idx (t idx).getRunnableCount }, t)
          (nextLoad (idx + 1) (d'.stealFrom idx (t idx).getRunnableCount (blocking idx) t).1,
            (d'.stealFrom idx (t idx).getRunnableCount (blocking idx) t).2) := by
        simp only [PassStep, step, if_pos hidx, stealFrom_goto, nextLoad_goto]
      exact .head hread (.head hsteal (ih _ _ _ (by omega) hcount))
    next hload =>
      rw [if_neg hload] at hread
      exact .head hread (ih _ _ _ (by omega) hcount)

/-- What follows the hand-out loop. -/
lemma handOutRest_run (blocking : ℕ → Bool) (d : DispatchState) (t : Executors)
    (hmin : d.minLoadIdx < size) :
    ReflTransGen (PassStep size blocking) (d.afterHandOut, t)
      ({ (handOutRest (d, t)).1 with pc := .idle }, (handOutRest (d, t)).2) := by
  simp only [afterHandOut, handOutRest]
  split
  next =>
    refine .single ?_
    simp [PassStep, step, hmin, handTo_goto]
  next => exact .refl

/-- The hand-out loop over the items it has not reached, and what follows it. -/
lemma handOutLoop_run (blocking : ℕ → Bool) (items : List (ℕ × ℕ)) (d : DispatchState)
    (t : Executors)
    (hmin : d.minLoadIdx < size) (hitems : ∀ p ∈ items, p.1 < size) :
    let p := handOutRest (handOutLoop items (d, t))
    ReflTransGen (PassStep size blocking) ({ d with pc := .handOut items }, t)
      ({ p.1 with pc := .idle }, p.2) := by
  induction items generalizing d t with
  | nil =>
    refine .head (b := (d.afterHandOut, t)) ?_ (handOutRest_run blocking d t hmin)
    simp [PassStep, step]
  | cons item items ih =>
    obtain ⟨idx, load⟩ := item
    obtain ⟨hidx, hrest⟩ := List.forall_mem_cons.mp hitems
    simp only [handOutLoop]
    split
    next hsupply =>
      refine .head ?_ (ih d t hmin hrest)
      simp [PassStep, step, hsupply]
    next hsupply =>
      have hend : ∀ pc, supplyEnd load { d with pc := pc } = d.supplyEnd load := fun _ => rfl
      split
      next hdone =>
        -- the stolen deque is used up, so that the loop breaks
        refine .head (b := (afterHandOut (d.handTo idx (d.supplyEnd load) t).1,
          (d.handTo idx (d.supplyEnd load) t).2)) ?_ (handOutRest_run blocking _ _ hmin)
        have hdone' : d.stolen.length ≤ (d.handTo idx (d.supplyEnd load) t).1.first := hdone
        simp only [PassStep, step, if_neg hsupply, if_pos hidx, hend, handTo_goto, ge_iff_le,
          if_pos hdone', afterHandOut_goto]
      next hmore =>
        refine .head ?_ (ih _ _ hmin hrest)
        have hmore' : ¬ d.stolen.length ≤ (d.handTo idx (d.supplyEnd load) t).1.first := hmore
        simp only [PassStep, step, if_neg hsupply, if_pos hidx, hend, handTo_goto, ge_iff_le,
          if_neg hmore']
        rfl

end DispatchState

/-! ## The whole pass -/

/-- Steps that are not interfered with keep the invariants of a pass. -/
lemma PassStep.wf {size : ℕ} {blocking : ℕ → Bool} {p q : DispatchState × Executors}
    (h : ReflTransGen (PassStep size blocking) p q) (hp : p.1.Wf)
    (hin : DispatchState.InBounds size p.1) : q.1.Wf ∧ DispatchState.InBounds size q.1 := by
  induction h with
  | refl => exact ⟨hp, hin⟩
  | tail _ hstep ih =>
    exact ⟨DispatchState.step_wf ih.1 hstep, DispatchState.step_inBounds ih.1 ih.2 le_rfl hstep⟩

/-- Nor do they touch anything of an executor but its runnable queue. -/
lemma PassStep.frame {size : ℕ} {blocking : ℕ → Bool} {p q : DispatchState × Executors}
    (h : ReflTransGen (PassStep size blocking) p q) (e : ℕ) :
    q.2 e = { p.2 e with runnableQueue := (q.2 e).runnableQueue } := by
  induction h with
  | refl => rfl
  | tail _ hstep ih => rw [DispatchState.step_frame hstep e, ih]

/-- **Run without interference, the queue operations of a pass compute
`dispatchTasksEqually`.** -/
theorem dispatchTasksEqually_run (size : ℕ) (blocking : ℕ → Bool) (t : Executors) :
    ReflTransGen (PassStep size blocking) (.start size, t)
      ({ (dispatchTasksEqually size blocking t).1 with pc := .idle },
        (dispatchTasksEqually size blocking t).2) := by
  rcases Nat.eq_zero_or_pos size with rfl | hpos
  · simp [dispatchTasksEqually, DispatchState.start, ReflTransGen.refl]
  obtain ⟨k, rfl⟩ : ∃ k, size = k + 1 := ⟨size - 1, by omega⟩
  have hstart : DispatchState.start (k + 1) =
      { executorCount := k + 1, pc := .countRunnable 0 } := by simp [DispatchState.start]
  have hsize : 0 + (k + 1) = k + 1 := by omega
  have hcount := DispatchState.countLoop_run blocking k 0 { executorCount := k + 1 } (t := t)
    hsize rfl
  simp only [zero_add, ← List.range_eq_range', DispatchState.afterCount] at hcount
  simp only [dispatchTasksEqually]
  rw [hstart]
  split
  next hzero => simpa only [if_pos hzero] using hcount
  next hload =>
    simp only [if_neg hload] at hcount
    set d : DispatchState :=
      { executorCount := k + 1
        totalRunnables := ((List.range (k + 1)).map fun i => (t i).getRunnableCount).sum
        totalWaitings := ((List.range (k + 1)).map fun i => (t i).getWaitingCount).sum
        avgLoad := (((List.range (k + 1)).map fun i => (t i).getRunnableCount).sum +
          ((List.range (k + 1)).map fun i => (t i).getWaitingCount).sum) / (k + 1)
        minLoad := (t 0).getRunnableCount } with hd
    have hmin : PassStep (k + 1) blocking ({ d with pc := .readMin, minLoad := 0 }, t)
        (d.nextLoad 0, t) := by
      simp only [PassStep, DispatchState.step, if_pos hpos]
      rfl
    have hsteal := DispatchState.stealLoop_run blocking (k + 1) 0 d t hsize rfl
    rw [← List.range_eq_range'] at hsteal
    have hrun := (hcount.tail hmin).trans hsteal
    generalize stealLoop blocking (List.range (k + 1)) (d, t) = p at hrun ⊢
    obtain ⟨hwf, hin⟩ := PassStep.wf hrun (hstart ▸ DispatchState.start_wf (k + 1)) ⟨by simp, rfl⟩
    have hcnt : p.1.executorCount = k + 1 := by simpa using hin.2
    have hend : p.1.nextLoad (k + 1) =
        { p.1 with pc := if p.1.stolen = [] then .idle else .handOut p.1.lowLoad } := by
      rw [DispatchState.nextLoad, if_neg (by omega)]
      split <;> rfl
    rw [hend] at hrun hwf
    split
    next hnil => simpa only [if_pos hnil] using hrun
    next hne =>
      simp only [if_neg hne] at hrun hwf
      have hok := hwf.pcOk
      simp only [DispatchState.PcOk, hcnt] at hok
      exact hrun.trans (DispatchState.handOutLoop_run blocking p.1.lowLoad p.1 p.2 hok.1
        fun item hitem => (hok.2.2 item hitem).1)

end CoroutineCpp
