import CoroutineCpp.Properties.Affinity
import CoroutineCpp.Properties.Placement
import CoroutineCpp.Properties.WakeupParts

/-!
# The pops that are due

Between its push and its pop a `WakeupAllTasks` leaves a task in two queues.  `settled` is the state
in which those pops are made already.  In an undisturbed run the pops take what was pushed, so a
step of the run is one effect between settled states, or none (`Waking.settled`): the placement
invariant holds of every settled state.
-/

namespace CoroutineCpp

open Framework TransitionSystem

open scoped Classical in
/-- An executor after the pop that is due. -/
noncomputable def CoExecutor.settle (due : Prop) (ex : CoExecutor) : CoExecutor :=
  { ex with waitingQueue := if due then ex.waitingQueue.tail else ex.waitingQueue }

lemma settle_update {t : Executors} {ex : CoExecutor} {due : ℕ → Prop} {e : ℕ} :
    (fun e' => (Function.update t e ex e').settle (due e')) =
      Function.update (fun e' => (t e').settle (due e')) e (ex.settle (due e)) :=
  funext fun e' => Function.apply_update (fun e' (ex : CoExecutor) => ex.settle (due e')) t e ex e'

lemma CoExecutor.SamePending.settle {ex ex' : CoExecutor} {p : Prop} (h : ex.SamePending ex') :
    (ex.settle p).SamePending (ex'.settle p) := by
  obtain ⟨hr, hw, ha, hst, hid⟩ := h
  exact ⟨hr, by simp only [CoExecutor.settle, hw], ha, hst, hid⟩

/-- A removal that keeps the front of a queue is one from the rest of the queue. -/
lemma tail_erase_of_head {q : List CoTaskPtr} {tk : CoTaskPtr} (htk : tk ∈ q)
    (hhead : (q.erase tk).head? = q.head?) : tk ∈ q.tail ∧ (q.erase tk).tail = q.tail.erase tk := by
  cases q with
  | nil => cases htk
  | cons tk₀ rest =>
    by_cases heq : tk = tk₀
    · -- the front is removed, and the same task stands behind it
      subst heq
      rw [List.erase_cons_head] at hhead ⊢
      cases rest with
      | nil => cases hhead
      | cons tk₁ rest =>
        obtain rfl : tk₁ = tk := by simpa using hhead
        simp
    · rw [List.erase_cons_tail (by simpa using Ne.symm heq)]
      exact ⟨(List.mem_cons.mp htk).resolve_left heq, rfl⟩

section Settle

variable {p : Prop} {ex : CoExecutor} {tk : CoTaskPtr}

lemma CoExecutor.settle_append (l : List CoTaskPtr) (h : p → ex.waitingQueue ≠ []) :
    { ex with waitingQueue := ex.waitingQueue ++ l }.settle p =
      { ex.settle p with waitingQueue := (ex.settle p).waitingQueue ++ l } := by
  by_cases hp : p
  · simp only [settle, if_pos hp, List.tail_append_of_ne_nil (h hp)]
  · simp only [settle, if_neg hp]

lemma CoExecutor.mem_settle (htk : tk ∈ ex.waitingQueue)
    (h : p → (ex.waitingQueue.erase tk).head? = ex.waitingQueue.head?) :
    tk ∈ (ex.settle p).waitingQueue := by
  by_cases hp : p
  · simpa only [settle, if_pos hp] using (tail_erase_of_head htk (h hp)).1
  · simpa only [settle, if_neg hp] using htk

lemma CoExecutor.settle_erase (pushed : CoTaskPtr) (htk : tk ∈ ex.waitingQueue)
    (h : p → (ex.waitingQueue.erase tk).head? = ex.waitingQueue.head?) :
    { ex with
        waitingQueue := ex.waitingQueue.erase tk
        awokenQueue := ex.awokenQueue ++ [pushed] }.settle p =
      { ex.settle p with
        waitingQueue := (ex.settle p).waitingQueue.erase tk
        awokenQueue := ex.awokenQueue ++ [pushed] } := by
  by_cases hp : p
  · simp only [settle, if_pos hp, (tail_erase_of_head htk (h hp)).2]
  · simp only [settle, if_neg hp]

end Settle

/-- A queue operation of the dispatcher does not see the waiting queues. -/
lemma DispatchState.StepEffect.settle {d d' : DispatchState} {t t' : Executors} {due : ℕ → Prop}
    (h : StepEffect d d' t t') :
    StepEffect d d' (fun e => (t e).settle (due e)) (fun e => (t' e).settle (due e)) := by
  cases h with
  | read ht ho => exact .read (by rw [ht]) ho
  | steal idx load kept block hpc hidx hq ht ho =>
    refine .steal idx load kept block hpc hidx hq ?_ ho
    rw [ht, settle_update]
    rfl
  | hand idx batch hidx hne ho ht =>
    refine .hand idx batch hidx hne ho ?_
    rw [ht, settle_update]
    rfl

namespace Sched

/-- A caller of `WakeupAllTasks` is about to pop the waiting queue of executor `e`. -/
def PopDue (s : Sched) (e : ℕ) : Prop := ∃ w, s.wakers w = .pop e

/-- The state after the pops at the executors in `due`, with nobody in `WakeupAllTasks`. -/
noncomputable def settle (due : ℕ → Prop) (s : Sched) : Sched :=
  { s with
    executors := fun e => (s.executors e).settle (due e)
    wakers := fun _ => .idle }

/-- The state after the pops that are due. -/
noncomputable def settled (s : Sched) : Sched := s.settle s.PopDue

variable {s s' : Sched} {a : Act} {due : ℕ → Prop} {e : ℕ} {tk : CoTaskPtr}

/-- What keeps the front of the queues that are due is an effect between settled states. -/
lemma Effect.settle (h : Effect s s') (hdue : ∀ e, due e → (s.executors e).waitingQueue ≠ [] ∧
      (s'.executors e).waitingQueue.head? = (s.executors e).waitingQueue.head?) :
    Effect (s.settle due) (s'.settle due) := by
  cases h with
  | quiet h =>
    refine .quiet { h with
      waitingQueue := fun e => ?_
      wakers := fun _ _ _ hw => by cases hw
      wakerTarget := fun _ _ hw => by cases hw }
    simp only [Sched.settle, CoExecutor.settle, h.waitingQueue]
  | @submit e tks he hnd hnew =>
    simp only [Sched.settle, settle_update]
    exact @Effect.submit (s.settle due) e tks he hnd hnew
  | @pass d' t' h hwf hcount => exact @Effect.pass (s.settle due) d' _ h.settle hwf hcount
  | @start e tk ex' pc' he hpc hpc' hq hex hfin hrun hco =>
    simp only [Sched.settle, settle_update]
    exact @Effect.start (s.settle due) e tk _ pc' he hpc hpc' hq hex.settle hfin hrun hco
  | @resume e tk ex' pc' he hpc hpc' hq hex hfin hrun hst =>
    simp only [Sched.settle, settle_update]
    exact @Effect.resume (s.settle due) e tk _ pc' he hpc hpc' hq hex.settle hfin hrun hst
  | @inert e tk ex' pc' reclaimed thrown he hpc hpc' hq hex hfin hst =>
    simp only [Sched.settle, settle_update]
    exact @Effect.inert (s.settle due) e tk _ pc' _ _ he hpc hpc' hq hex.settle hfin hst
  | @hold e pc' he hpc hpc' =>
    simp only [Sched.settle, settle_update]
    rw [CoExecutor.settle_append _ fun hp => (hdue e hp).1]
    exact @Effect.hold (s.settle due) e pc' he hpc hpc'
  | @leave e ex' pc' task' reclaimed yielded thrown he hpc hpc' hex hfin href hstarted hout =>
    simp only [Sched.settle, settle_update]
    exact @Effect.leave (s.settle due) e _ pc' task' _ _ _ he hpc hpc' hex.settle hfin href hstarted
      hout
  | @wake e tk he htk =>
    have hhead : due e → ((s.executors e).waitingQueue.erase tk).head? =
        (s.executors e).waitingQueue.head? := fun hp => by simpa using (hdue e hp).2
    simp only [Sched.settle, settle_update]
    rw [CoExecutor.settle_erase _ htk hhead]
    exact @Effect.wake (s.settle due) e tk he (CoExecutor.mem_settle htk hhead)
  | @wakeExpired e tk he htk hover =>
    have hhead : due e → ((s.executors e).waitingQueue.erase tk).head? =
        (s.executors e).waitingQueue.head? := fun hp => by simpa using (hdue e hp).2
    simp only [Sched.settle, settle_update]
    rw [CoExecutor.settle_erase _ htk hhead]
    exact @Effect.wakeExpired (s.settle due) e tk he (CoExecutor.mem_settle htk hhead) hover

/-! ## Every step -/

lemma settled_executors (s : Sched) (e : ℕ) :
    s.settled.executors e = (s.executors e).settle (s.PopDue e) := rfl

/-- A caller that goes on does not matter where it neither was nor is about to pop. -/
lemma popDue_update {w : ℕ} {pc : WakerPc} (hs' : s'.wakers = Function.update s.wakers w pc)
    (hpc : pc ≠ .pop e) (hold : s.wakers w ≠ .pop e) : s'.PopDue e = s.PopDue e := by
  refine propext (exists_congr fun w' => ?_)
  rw [hs']
  by_cases heq : w' = w
  · subst heq
    simp [hpc, hold]
  · rw [Function.update_of_ne heq]

/-- A push is the whole wakeup, once the pop that is due from then on is made. -/
lemma settled_push {w : ℕ} (hs' : s' = { s with
      executors := Function.update s.executors e
        { s.executors e with awokenQueue := (s.executors e).awokenQueue ++ [tk] }
      wakers := Function.update s.wakers w (.pop e)
      wakes := s.wakes ++ [tk] })
    (hw : s.wakers w = .push e tk) (he : e < s.n)
    (hhead : (s.executors e).waitingQueue.head? = some tk) (hdue : ¬ s.PopDue e) :
    Effect s.settled s'.settled := by
  obtain ⟨rest, hq⟩ := List.head?_eq_some_iff.mp hhead
  have hdue' : s'.PopDue e := ⟨w, by simp [hs']⟩
  have hexe : s.settled.executors e = s.executors e := by
    simp only [settled_executors, CoExecutor.settle, if_neg hdue]
  have hex : s'.settled.executors = Function.update s.settled.executors e
      { s.settled.executors e with
        waitingQueue := (s.settled.executors e).waitingQueue.erase tk
        awokenQueue := (s.settled.executors e).awokenQueue ++ [tk] } := by
    funext e'
    by_cases hee' : e' = e
    · subst hee'
      rw [Function.update_self, hexe, hq, List.erase_cons_head]
      simp only [settled_executors, CoExecutor.settle, if_pos hdue']
      simp [hs', hq]
    · rw [Function.update_of_ne hee']
      have hsame : s'.PopDue e' = s.PopDue e' :=
        popDue_update (by rw [hs']) (by simpa using Ne.symm hee') (by simp [hw])
      have hex : s'.executors e' = s.executors e' := by simp [hs', hee']
      rw [settled_executors, settled_executors, hsame, hex]
  have heff := @Effect.wake s.settled e tk he (by rw [hexe, hq]; exact List.mem_cons_self)
  rw [← hex] at heff
  subst hs'
  exact heff

/-- A pop that is due makes no difference. -/
lemma settled_pop {w : ℕ} {rest : List CoTaskPtr} (hs' : s' = { s with
      executors := Function.update s.executors e { s.executors e with waitingQueue := rest }
      wakers := Function.update s.wakers w (.test e) })
    (hw : s.wakers w = .pop e) (hq : (s.executors e).waitingQueue = tk :: rest)
    (hunique : ∀ w', s.wakers w' = .pop e → w = w') : s'.settled = s.settled := by
  have hdue : s.PopDue e := ⟨w, hw⟩
  have hdue' : ¬ s'.PopDue e := by
    rintro ⟨w', hw'⟩
    rw [hs'] at hw'
    obtain ⟨hne, hpop⟩ := pop_of_update (by simp) hw'
    exact hne (hunique w' hpop).symm
  have hex : s'.settled.executors = s.settled.executors := by
    funext e'
    by_cases hee' : e' = e
    · subst hee'
      simp only [settled_executors, CoExecutor.settle, if_neg hdue', if_pos hdue]
      simp [hs', hq]
    · have hsame : s'.PopDue e' = s.PopDue e' :=
        popDue_update (by rw [hs']) (by simp) (by simpa [hw] using Ne.symm hee')
      have hex : s'.executors e' = s.executors e' := by simp [hs', hee']
      rw [settled_executors, settled_executors, hsame, hex]
  calc s'.settled = { s.settled with executors := s'.settled.executors } := by subst hs'; rfl
    _ = s.settled := by rw [hex]

/-- **An undisturbed step is an effect between settled states**, or none. -/
lemma Waking.settled (h : Waking s a s') (ho : s.Orderly) (hu : s.Undisturbed a) :
    Effect s.settled s'.settled ∨ s'.settled = s.settled := by
  have hfront : ∀ e, s.PopDue e → (s.executors e).waitingQueue ≠ [] := by
    rintro e ⟨w, hw⟩
    have hready := ho.ready w
    rwa [hw] at hready
  cases h with
  | other ha heff hwakers hwakes =>
    have hdue : s'.PopDue = s.PopDue := by unfold PopDue; rw [hwakers]
    refine .inl ?_
    rw [Sched.settled, Sched.settled, hdue]
    refine heff.settle fun e hp => ⟨hfront e hp, ?_⟩
    obtain ⟨l, hl⟩ := heff.waitingQueue_of_wakes hwakes e
    rw [hl, List.head?_append_of_ne_nil _ (hfront e hp)]
  | single ha heff hwakers hwakes hpushed htk hq =>
    have hdue : s'.PopDue = s.PopDue := by unfold PopDue; rw [hwakers]
    refine .inl ?_
    rw [Sched.settled, Sched.settled, hdue]
    refine heff.settle fun e hp => ⟨hfront e hp, ?_⟩
    obtain ⟨w, hw⟩ := hp
    rw [hq]
    exact head_left (hu w fun h => by simp [h, Act.isWakerStep] at ha) hw
  | @goes w pc ha hs' hold hpc hread hfront hpop =>
    subst hs'
    refine .inr (congrArg (Sched.settle · s) (funext fun e => ?_))
    exact popDue_update rfl (hpop e) (hold e)
  | @push w e tk ha hw he hs' =>
    have hready := ho.ready w
    rw [hw] at hready
    refine .inl (settled_push hs' hw he hready ?_)
    rintro ⟨w', hw'⟩
    exact hu.not_pop_of_push ha hw w' hw'
  | @pop w e tk rest ha hw he hq hs' => exact .inr (settled_pop hs' hw hq (ho.pop_unique w · e hw))
  | @empty w e hw hq =>
    have hready := ho.ready w
    rcases hw with hw | hw <;> rw [hw] at hready <;> exact absurd hq hready

/-! ## Runs -/

/-- What holds in the states of an undisturbed run. -/
structure Paired (s : Sched) : Prop where
  affine : s.Affine
  orderly : s.Orderly
  settled_affine : s.settled.Affine
  settled_placed : s.settled.Placed

end Sched

end CoroutineCpp
