import CoroutineCpp.Framework.Progress
import CoroutineCpp.Properties.Settled

/-!
# Every resumption is paid for

In the ledger of tasks a resumption is paid for by the submission or by a push of a wakeup, and what
is not spent yet is in a runnable queue, in the hands of the dispatcher or in an awoken queue
(`push_count`).  A wakeup moves a task when it takes it out of a waiting queue, and `WakeupAllTasks`
takes what is at the front after its push, which another wakeup may have changed by then
(`resumption_counted_counterexample`).  Where no caller of `WakeupAllTasks` is disturbed, what is
pushed and what is taken are the same, up to the pops that are due, and `resumption_counted` is the
counting law.

The runs submit new tasks only, and their operations run in parts.
-/

namespace CoroutineCpp

open Framework TransitionSystem

namespace Sched

variable {s : Sched} {tk : CoTaskPtr}

/-- The task stands at the front of a waiting queue that a caller of `WakeupAllTasks` is about to
pop. -/
def Underway (s : Sched) (tk : CoTaskPtr) : Prop :=
  ∃ w e, s.wakers w = .pop e ∧ (s.executors e).waitingQueue.head? = some tk

open scoped Classical in
/-- The wakeups of the task that have pushed it and have not taken it out of the waiting queue
yet. -/
noncomputable def underway (s : Sched) (tk : CoTaskPtr) : ℕ := if s.Underway tk then 1 else 0

open scoped Classical in
lemma underway_eq_of_iff {s' : Sched} (h : s'.Underway tk ↔ s.Underway tk) :
    s'.underway tk = s.underway tk := if_congr h rfl rfl

/-- One more task is under way. -/
lemma underway_eq_add {s' : Sched} {tk₀ : CoTaskPtr} (hnot : ¬ s.Underway tk₀)
    (h : s'.Underway tk ↔ tk = tk₀ ∨ s.Underway tk) :
    s'.underway tk = s.underway tk + [tk₀].count tk := by
  by_cases heq : tk = tk₀
  · subst heq
    simp [underway, h, hnot]
  · rw [underway_eq_of_iff (h.trans (or_iff_right heq))]
    simp [Ne.symm heq]

/-- The wakeups under way, after a step that leaves the pops that are due alone. -/
lemma underway_eq {s' : Sched} (hpop : ∀ w e, s'.wakers w = .pop e ↔ s.wakers w = .pop e)
    (hhead : ∀ w e, s.wakers w = .pop e →
      (s'.executors e).waitingQueue.head? = (s.executors e).waitingQueue.head?) :
    s'.underway tk = s.underway tk := by
  refine underway_eq_of_iff (exists_congr fun w => exists_congr fun e => ?_)
  rw [hpop]
  exact and_congr_right fun hw => by rw [hhead w e hw]

/-- A task in two waiting queues is in the queue of one executor. -/
lemma Affine.waiting_unique (hs : s.Affine) {e e' : ℕ} (h : tk ∈ (s.executors e).waitingQueue)
    (h' : tk ∈ (s.executors e').waitingQueue) : e = e' :=
  (hs.waiting_started e tk h).unique (hs.waiting_started e' tk h')

/-- A push puts its task under way. -/
lemma underway_push {s' : Sched} {a : Act} {w e : ℕ} {tk₀ : CoTaskPtr} (hc : s.Paired)
    (hu : s.Undisturbed a) (ha : a = .wakerStep w) (hw : s.wakers w = .push e tk₀)
    (hs' : s' = { s with
      executors := Function.update s.executors e
        { s.executors e with awokenQueue := (s.executors e).awokenQueue ++ [tk₀] }
      wakers := Function.update s.wakers w (.pop e)
      wakes := s.wakes ++ [tk₀] }) :
    s'.underway tk = s.underway tk + [tk₀].count tk := by
  have hready := hc.orderly.ready w
  rw [hw] at hready
  have hq : ∀ e', (s'.executors e').waitingQueue = (s.executors e').waitingQueue := by
    rw [hs']
    exact update_view CoExecutor.waitingQueue (by rfl)
  refine underway_eq_add ?_ ⟨?_, ?_⟩
  · rintro ⟨w', e', hw', hhead⟩
    obtain rfl := hc.affine.waiting_unique (List.mem_of_head? hready) (List.mem_of_head? hhead)
    exact hu.not_pop_of_push ha hw w' hw'
  · rintro ⟨w', e', hw', hhead⟩
    rw [hq] at hhead
    by_cases heq : w' = w
    · subst heq
      obtain rfl : e = e' := by simpa [hs'] using hw'
      exact .inl (Option.some.inj (hhead.symm.trans hready))
    · exact .inr ⟨w', e', by simpa [hs', heq] using hw', hhead⟩
  · rintro (rfl | ⟨w', e', hw', hhead⟩)
    · exact ⟨w, e, by simp [hs'], by rw [hq]; exact hready⟩
    · have hne : w' ≠ w := by
        rintro rfl
        simp [hw] at hw'
      exact ⟨w', e', by simpa [hs', hne] using hw', by rw [hq]; exact hhead⟩

/-- A pop ends the wakeup that was under way. -/
lemma underway_pop {s' : Sched} {w e : ℕ} {tk₀ : CoTaskPtr} {rest : List CoTaskPtr} (hc : s.Paired)
    (hw : s.wakers w = .pop e) (hq : (s.executors e).waitingQueue = tk₀ :: rest)
    (hs' : s' = { s with
      executors := Function.update s.executors e { s.executors e with waitingQueue := rest }
      wakers := Function.update s.wakers w (.test e) }) :
    s.underway tk = s'.underway tk + [tk₀].count tk := by
  -- who is about to pop afterwards pops the queue of another executor
  have hrest : ∀ w' e', s'.wakers w' = .pop e' → s.wakers w' = .pop e' ∧ e' ≠ e ∧
      (s'.executors e').waitingQueue = (s.executors e').waitingQueue := by
    intro w' e' hw'
    rw [hs'] at hw'
    obtain ⟨hne, hpop⟩ := pop_of_update (by simp) hw'
    have hee' : e' ≠ e := by
      rintro rfl
      exact hne (hc.orderly.pop_unique w' w e' hpop hw)
    exact ⟨hpop, hee', by simp [hs', hee']⟩
  refine underway_eq_add ?_ ⟨?_, ?_⟩
  · rintro ⟨w', e', hw', hhead⟩
    obtain ⟨-, hee', hsame⟩ := hrest w' e' hw'
    rw [hsame] at hhead
    exact hee' (hc.affine.waiting_unique (List.mem_of_head? hhead) (by simp [hq]))
  · rintro ⟨w', e', hw', hhead⟩
    by_cases heq : w' = w
    · subst heq
      obtain rfl : e = e' := by simpa [hw] using hw'
      exact .inl (by simpa [hq] using hhead.symm)
    · have hee' : e' ≠ e := by
        rintro rfl
        exact heq (hc.orderly.pop_unique w' w e' hw' hw)
      exact .inr ⟨w', e', by simpa [hs', heq] using hw', by simpa [hs', hee'] using hhead⟩
  · rintro (rfl | ⟨w', e', hw', hhead⟩)
    · exact ⟨w, e, hw, by simp [hq]⟩
    · obtain ⟨hw', -, hsame⟩ := hrest w' e' hw'
      exact ⟨w', e', hw', hsame ▸ hhead⟩

/-- **In an undisturbed step the pushes and the removals balance**, up to the pops that are due. -/
lemma Waking.counted {s' : Sched} {a : Act} (h : Waking s a s') (hc : s.Paired)
    (hu : s.Undisturbed a) (tk : CoTaskPtr) :
    s'.wakes.count tk + s.underway tk =
      s.wakes.count tk + ((s.takes a).map Prod.snd).toList.count tk + s'.underway tk := by
  have hready : ∀ w e, s.wakers w = .pop e → (s.executors e).waitingQueue ≠ [] := by
    intro w e hw
    have h := hc.orderly.ready w
    rwa [hw] at h
  cases h with
  | other ha heff hwakers hwakes htakes =>
    have hsame : s'.underway tk = s.underway tk := by
      refine underway_eq (by simp [hwakers]) fun w e hw => ?_
      obtain ⟨l, hl⟩ := heff.waitingQueue_of_wakes hwakes e
      rw [hl, List.head?_append_of_ne_nil _ (hready w e hw)]
    simp [hwakes, htakes, hsame]
  | @single e tk₀ pushed ha heff hwakers hwakes hpushed htk hq htakes =>
    have hd : ∀ w, s.disturbs a w = false := fun w =>
      hu w fun h => by simp [h, Act.isWakerStep] at ha
    have hsame : s'.underway tk = s.underway tk := by
      refine underway_eq (by simp [hwakers]) fun w e hw => ?_
      rw [hq, head_left (hd w) hw]
    have hsettled : tk₀ ∈ (s.settled.executors e).waitingQueue := by
      refine CoExecutor.mem_settle htk ?_
      rintro ⟨w, hw⟩
      simpa [left_of_takes htakes] using head_left (hd w) hw
    -- the task is not over, so it is what was pushed
    obtain rfl := hpushed.resolve_right (hc.settled_placed.not_over (.inl hsettled))
    rw [hwakes, hsame, htakes, List.count_append]
    simp
  | @goes w pc ha hs' hold hpc hread hfront hpop htakes =>
    have hsame : s'.underway tk = s.underway tk := by
      refine underway_eq (fun w' e => ?_) fun _ _ _ => by rw [hs']
      rw [hs']
      by_cases heq : w' = w
      · subst heq
        simp [hpop, hold]
      · simp [heq]
    have hwakes : s'.wakes = s.wakes := by rw [hs']
    simp [hwakes, htakes, hsame]
  | @push w e tk₀ ha hw he hs' =>
    have htakes : s.takes a = none := by simp [ha, takes, hw]
    have hwakes : s'.wakes = s.wakes ++ [tk₀] := by rw [hs']
    have hadd : s'.underway tk = s.underway tk + [tk₀].count tk := underway_push hc hu ha hw hs'
    simp only [hwakes, htakes, hadd, List.count_append]
    simp
    omega
  | @pop w e tk₀ rest ha hw he hq hs' =>
    have htakes : s.takes a = some (e, tk₀) := by simp [ha, takes, hw, hq]
    have hwakes : s'.wakes = s.wakes := by rw [hs']
    have hadd : s.underway tk = s'.underway tk + [tk₀].count tk := underway_pop hc hw hq hs'
    simp only [hwakes, htakes, hadd]
    simp
    omega
  | @empty w e hw hq =>
    have h := hc.orderly.ready w
    rcases hw with hw | hw <;> rw [hw] at h <;> exact absurd hq h

end Sched

end CoroutineCpp
