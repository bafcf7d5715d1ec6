import CoroutineCpp.Model.Dispatch

/-!
# The cases of a queue operation

`DispatchState.Move` lists what `DispatchState.step` can do, each case with the tests it has made,
and `step_move` says that a step is one of them.  The invariant of a pass, its effect on the
executors and its bounds (`Properties/DispatchPass.lean`) are proved by cases on the move.

An index out of bounds can come from seven points; `access` says which index each of them uses, so
that it is a single case here.
-/

namespace CoroutineCpp

namespace DispatchState

/-- The index of `m_executors` that the next queue operation uses, if it uses one. -/
def access (d : DispatchState) : Option ℕ :=
  match d.pc with
  | .countRunnable i | .countWaiting i => some i
  | .readMin => some 0
  | .readLoad idx | .giveUp idx _ => some idx
  | .handOut ((idx, load) :: _) => if wrapSub d.avgLoad load = 0 then none else some idx
  | .rest => some d.minLoadIdx
  | _ => none

/-- One queue operation on a table of `size` executors. -/
inductive Move (size : ℕ) (blocking : Bool) (d : DispatchState) (t : Executors) :
    DispatchState → Executors → Prop
  | outOfBounds {idx : ℕ} (h : d.access = some idx) (hidx : size ≤ idx) :
      Move size blocking d t { d with pc := .outOfBounds } t
  | countRunnable {i : ℕ} (hpc : d.pc = .countRunnable i) (hi : i < size) :
      Move size blocking d t
        { d with
          totalRunnables := d.totalRunnables + (t i).getRunnableCount, pc := .countWaiting i } t
  | countWaiting {i : ℕ} (hpc : d.pc = .countWaiting i) (hi : i < size)
      (hnext : i + 1 < d.executorCount) :
      Move size blocking d t
        { d with
          totalWaitings := d.totalWaitings + (t i).getWaitingCount, pc := .countRunnable (i + 1) } t
  | counted {i : ℕ} (hpc : d.pc = .countWaiting i) (hi : i < size)
      (hlast : d.executorCount ≤ i + 1) :
      Move size blocking d t
        (afterCount { d with totalWaitings := d.totalWaitings + (t i).getWaitingCount }) t
  | readMin (hpc : d.pc = .readMin) (hsize : 0 < size) :
      Move size blocking d t
        (nextLoad 0 { d with minLoadIdx := 0, minLoad := (t 0).getRunnableCount }) t
  | readDonor {idx load : ℕ} {d₁ : DispatchState} (hpc : d.pc = .readLoad idx) (hidx : idx < size)
      (hread : load = (t idx).getRunnableCount) (hd₁ : d₁ = d.noteMin idx load)
      (hload : d₁.avgLoad < load) :
      Move size blocking d t { d₁ with pc := .giveUp idx load } t
  | readLow {idx load : ℕ} {d₁ : DispatchState} (hpc : d.pc = .readLoad idx) (hidx : idx < size)
      (hread : load = (t idx).getRunnableCount) (hd₁ : d₁ = d.noteMin idx load)
      (hload : load ≤ d₁.avgLoad) :
      Move size blocking d t ((d₁.noteLowLoad idx load).nextLoad (idx + 1)) t
  | giveUp {idx load : ℕ} (hpc : d.pc = .giveUp idx load) (hidx : idx < size) :
      Move size blocking d t ((d.stealFrom idx load blocking t).1.nextLoad (idx + 1))
        (d.stealFrom idx load blocking t).2
  | handOutEnd (hpc : d.pc = .handOut []) : Move size blocking d t d.afterHandOut t
  | handOutSkip {idx load : ℕ} {items : List (ℕ × ℕ)} (hpc : d.pc = .handOut ((idx, load) :: items))
      (hsupply : wrapSub d.avgLoad load = 0) :
      Move size blocking d t { d with pc := .handOut items } t
  | handOut {idx load : ℕ} {items : List (ℕ × ℕ)} (hpc : d.pc = .handOut ((idx, load) :: items))
      (hsupply : wrapSub d.avgLoad load ≠ 0) (hidx : idx < size)
      (hmore : d.supplyEnd load < d.stolen.length) :
      Move size blocking d t { (d.handTo idx (d.supplyEnd load) t).1 with pc := .handOut items }
        (d.handTo idx (d.supplyEnd load) t).2
  | handOutLast {idx load : ℕ} {items : List (ℕ × ℕ)} (hpc : d.pc = .handOut ((idx, load) :: items))
      (hsupply : wrapSub d.avgLoad load ≠ 0) (hidx : idx < size)
      (hlast : d.stolen.length ≤ d.supplyEnd load) :
      Move size blocking d t (d.handTo idx (d.supplyEnd load) t).1.afterHandOut
        (d.handTo idx (d.supplyEnd load) t).2
  | rest (hpc : d.pc = .rest) (hidx : d.minLoadIdx < size) :
      Move size blocking d t { (d.handTo d.minLoadIdx d.stolen.length t).1 with pc := .idle }
        (d.handTo d.minLoadIdx d.stolen.length t).2

variable {size : ℕ} {blocking : Bool} {d d' : DispatchState} {t t' : Executors}

/-- **Every queue operation is a move.** -/
theorem step_move (h : d.step size blocking t = some (d', t')) : Move size blocking d t d' t' := by
  unfold step at h
  cases hpc : d.pc with
  | idle | outOfBounds => simp [hpc] at h
  | countRunnable i =>
    simp only [hpc] at h
    split at h <;> (simp only [Option.some.injEq, Prod.mk.injEq] at h; obtain ⟨rfl, rfl⟩ := h)
    next hi => exact .countRunnable hpc hi
    next hi => exact .outOfBounds (by simp only [access, hpc]) (Nat.le_of_not_lt hi)
  | countWaiting i =>
    simp only [hpc] at h
    split at h
    next hi =>
      split at h <;> (simp only [Option.some.injEq, Prod.mk.injEq] at h; obtain ⟨rfl, rfl⟩ := h)
      next hnext => exact .countWaiting hpc hi hnext
      next hlast => exact .counted hpc hi (Nat.le_of_not_lt hlast)
    next hi =>
      simp only [Option.some.injEq, Prod.mk.injEq] at h
      obtain ⟨rfl, rfl⟩ := h
      exact .outOfBounds (by simp only [access, hpc]) (Nat.le_of_not_lt hi)
  | readMin =>
    simp only [hpc] at h
    split at h <;> (simp only [Option.some.injEq, Prod.mk.injEq] at h; obtain ⟨rfl, rfl⟩ := h)
    next hsize => exact .readMin hpc hsize
    next hsize => exact .outOfBounds (by simp only [access, hpc]) (Nat.le_of_not_lt hsize)
  | readLoad idx =>
    simp only [hpc] at h
    split at h
    next hidx =>
      split at h <;> (simp only [Option.some.injEq, Prod.mk.injEq] at h; obtain ⟨rfl, rfl⟩ := h)
      next hload => exact .readDonor hpc hidx rfl rfl hload
      next hload => exact .readLow hpc hidx rfl rfl (Nat.le_of_not_lt hload)
    next hidx =>
      simp only [Option.some.injEq, Prod.mk.injEq] at h
      obtain ⟨rfl, rfl⟩ := h
      exact .outOfBounds (by simp only [access, hpc]) (Nat.le_of_not_lt hidx)
  | giveUp idx load =>
    simp only [hpc] at h
    split at h <;> (simp only [Option.some.injEq, Prod.mk.injEq] at h; obtain ⟨rfl, rfl⟩ := h)
    next hidx => exact .giveUp hpc hidx
    next hidx => exact .outOfBounds (by simp only [access, hpc]) (Nat.le_of_not_lt hidx)
  | handOut items =>
    cases items with
    | nil =>
      simp only [hpc, Option.some.injEq, Prod.mk.injEq] at h
      obtain ⟨rfl, rfl⟩ := h
      exact .handOutEnd hpc
    | cons item items =>
      obtain ⟨idx, load⟩ := item
      simp only [hpc] at h
      split at h
      next hsupply =>
        simp only [Option.some.injEq, Prod.mk.injEq] at h
        obtain ⟨rfl, rfl⟩ := h
        exact .handOutSkip hpc hsupply
      next hsupply =>
        split at h
        next hidx =>
          split at h <;> (simp only [Option.some.injEq, Prod.mk.injEq] at h; obtain ⟨rfl, rfl⟩ := h)
          next hlast => exact .handOutLast hpc hsupply hidx hlast
          next hmore => exact .handOut hpc hsupply hidx (Nat.lt_of_not_le hmore)
        next hidx =>
          simp only [Option.some.injEq, Prod.mk.injEq] at h
          obtain ⟨rfl, rfl⟩ := h
          exact .outOfBounds (by simp only [access, hpc, if_neg hsupply]) (Nat.le_of_not_lt hidx)
  | rest =>
    simp only [hpc] at h
    split at h <;> (simp only [Option.some.injEq, Prod.mk.injEq] at h; obtain ⟨rfl, rfl⟩ := h)
    next hidx => exact .rest hpc hidx
    next hidx => exact .outOfBounds (by simp only [access, hpc]) (Nat.le_of_not_lt hidx)

end DispatchState

end CoroutineCpp
