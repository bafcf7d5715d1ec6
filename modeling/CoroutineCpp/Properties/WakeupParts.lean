import CoroutineCpp.Properties.SchedSteps

/-!
# `WakeupAllTasks` among other wakeups

`WakeupAllTasks` reads the front of the waiting queue, pushes it onto the awoken queue and then pops
whatever is at the front by then (`src/coexecutor.cpp:189-191`).  What another wakeup takes out of
the queue in between decides whether the task it pops is the one it has pushed.

`takes` reads off a step what it takes out of a waiting queue, and `Undisturbed` says that no caller
of `WakeupAllTasks` is interfered with.  `act_waking` lists what the steps of a run without whole
operations do to the waiting queues; `Orderly` is what the callers rely on.
-/

namespace CoroutineCpp

open Framework TransitionSystem

namespace Sched

/-! ## What a step takes -/

/-- What `WakeupFromEntry` on executor `e` takes out of the waiting queue. -/
def takesEntry (s : Sched) (e : ℕ) (entry : RecoveryEntry) : Option (ℕ × CoTaskPtr) :=
  if s.lock entry.tk ∈ (s.executors e).waitingQueue then some (e, s.lock entry.tk) else none

/-- What a step that is no whole operation takes out of a waiting queue: the executor and the
task. -/
def takes (s : Sched) : Act → Option (ℕ × CoTaskPtr)
  | .wakeupFromEntry e entry => s.takesEntry e entry
  | .wakeup entry =>
    if s.entryValid entry then
      (s.tasks (s.lock entry.tk)).proc.bind fun p => s.takesEntry p entry
    else none
  | .wakerStep w =>
    match s.wakers w with
    | .pop e => (s.executors e).waitingQueue.head?.map fun tk => (e, tk)
    | _ => none
  | _ => none

/-- The waiting queue of executor `e` without what the step takes. -/
def left (s : Sched) (a : Act) (e : ℕ) : List CoTaskPtr :=
  match s.takes a with
  | some (e', tk) =>
    if e' = e then (s.executors e).waitingQueue.erase tk else (s.executors e).waitingQueue
  | none => (s.executors e).waitingQueue

/-- The step is the push of a `WakeupAllTasks` of executor `e`. -/
def pushesAt (s : Sched) (a : Act) (e : ℕ) : Bool :=
  match a with
  | .wakerStep w =>
    match s.wakers w with
    | .push e' _ => e' = e
    | _ => false
  | _ => false

/-- The step gets in the way of waker `w`: it takes the last task of a queue whose `Front` is the
next call of `w`, it takes the task `w` has read and not popped yet, or it pushes that task too. -/
def disturbs (s : Sched) (a : Act) (w : ℕ) : Bool :=
  match s.wakers w with
  | .front e => (s.left a e).isEmpty
  | .push e tk => (s.left a e).head? ≠ some tk
  | .pop e => (s.left a e).head? ≠ (s.executors e).waitingQueue.head? || s.pushesAt a e
  | _ => false

/-- No caller of `WakeupAllTasks` is disturbed by a step of another thread. -/
def Undisturbed (s : Sched) (a : Act) : Prop := ∀ w, a ≠ .wakerStep w → s.disturbs a w = false

variable {s s' : Sched} {a : Act} {e w timeoutMs nowMs : ℕ} {last : Bool} {tk : CoTaskPtr}

lemma left_of_takes (h : s.takes a = some (e, tk)) (e' : ℕ) :
    s.left a e' = if e = e' then (s.executors e').waitingQueue.erase tk
      else (s.executors e').waitingQueue := by rw [left, h]

/-- An effect that pushes nothing by a wakeup takes nothing out of a waiting queue. -/
lemma Effect.waitingQueue_of_wakes (h : Effect s s') (hwakes : s'.wakes = s.wakes) (e : ℕ) :
    ∃ l, (s'.executors e).waitingQueue = (s.executors e).waitingQueue ++ l := by
  cases h with
  | quiet h => exact ⟨[], by simp [h.waitingQueue]⟩
  | submit => exact ⟨[], by simpa using update_view CoExecutor.waitingQueue (by rfl) e⟩
  | @pass d' t' h =>
    have hq : (t' e).waitingQueue = (s.executors e).waitingQueue := by rw [h.frame e]
    exact ⟨[], by simpa using hq⟩
  | start _ _ _ _ hex | resume _ _ _ _ hex | inert _ _ _ _ hex | leave _ _ _ hex =>
    exact ⟨[], by simpa using update_view CoExecutor.waitingQueue hex.waitingQueue e⟩
  | @hold e₀ =>
    by_cases heq : e = e₀
    · subst heq
      exact ⟨[(s.executors e).runningTask], by simp⟩
    · exact ⟨[], by simp [heq]⟩
  | wake | wakeExpired => simp at hwakes

/-! ## What a step comes to -/

/-- What a step does to the waiting queues and to the callers of `WakeupAllTasks`. -/
inductive Waking (s : Sched) (a : Act) (s' : Sched) : Prop
  /-- nothing is woken -/
  | other (ha : a.isWakerStep = false) (heff : Effect s s') (hwakers : s'.wakers = s.wakers)
      (hwakes : s'.wakes = s.wakes)
      (htakes : s.takes a = none) (hpush : ∀ e, s.pushesAt a e = false)
  /-- a single wakeup of a task; what it pushes is the task, unless that is over -/
  | single {e : ℕ} {tk pushed : CoTaskPtr} (ha : a.isWakerStep = false) (heff : Effect s s')
      (hwakers : s'.wakers = s.wakers) (hwakes : s'.wakes = s.wakes ++ [pushed])
      (hpushed : pushed = tk ∨
        (s.tasks tk).co.status = .finished ∨ (s.tasks tk).co.status = .except)
      (htk : tk ∈ (s.executors e).waitingQueue)
      (hq : ∀ e', (s'.executors e').waitingQueue = s.left a e')
      (htakes : s.takes a = some (e, tk)) (hpush : ∀ e, s.pushesAt a e = false)
  /-- a caller of `WakeupAllTasks` goes on without touching the queues -/
  | goes {w : ℕ} {pc : WakerPc} (ha : ∀ w', a = .wakerStep w' → w' = w)
      (hs' : s' = { s with wakers := Function.update s.wakers w pc })
      (hold : ∀ e, s.wakers w ≠ .pop e)
      (hpc : ∀ e, pc.target = some e → e < s.n)
      (hfront : ∀ e, pc = .front e → (s.executors e).waitingQueue ≠ [])
      (hread : ∀ e tk, pc = .push e tk → (s.executors e).waitingQueue.head? = some tk)
      (hpop : ∀ e, pc ≠ .pop e)
      (htakes : s.takes a = none) (hpush : ∀ e, s.pushesAt a e = false)
  /-- a caller of `WakeupAllTasks` pushes the task it has read -/
  | push {w e : ℕ} {tk : CoTaskPtr} (ha : a = .wakerStep w) (hw : s.wakers w = .push e tk)
      (he : e < s.n)
      (hs' : s' = { s with
        executors := Function.update s.executors e
          { s.executors e with awokenQueue := (s.executors e).awokenQueue ++ [tk] }
        wakers := Function.update s.wakers w (.pop e)
        wakes := s.wakes ++ [tk] })
  /-- a caller of `WakeupAllTasks` pops -/
  | pop {w e : ℕ} {tk : CoTaskPtr} {rest : List CoTaskPtr} (ha : a = .wakerStep w)
      (hw : s.wakers w = .pop e) (he : e < s.n)
      (hq : (s.executors e).waitingQueue = tk :: rest)
      (hs' : s' = { s with
        executors := Function.update s.executors e { s.executors e with waitingQueue := rest }
        wakers := Function.update s.wakers w (.test e) })
  /-- `Front` or `PopFront` meets an empty queue -/
  | empty {w e : ℕ} (hw : s.wakers w = .front e ∨ s.wakers w = .pop e)
      (hq : (s.executors e).waitingQueue = [])

/-- A caller finds in the waiting queues what it relies on. -/
def WakerPc.Ready (q : ℕ → List CoTaskPtr) : WakerPc → Prop
  | .front e => q e ≠ []
  | .push e tk => (q e).head? = some tk
  | .pop e => q e ≠ []
  | _ => True

/-- The callers of `WakeupAllTasks` do not meet an empty queue and do not meet each other. -/
structure Orderly (s : Sched) : Prop where
  ready : ∀ w, WakerPc.Ready (fun e => (s.executors e).waitingQueue) (s.wakers w)
  pop_unique : ∀ w w' e, s.wakers w = .pop e → s.wakers w' = .pop e → w = w'

lemma WakerPc.Ready.append {q q' : ℕ → List CoTaskPtr} {pc : WakerPc} (h : Ready q pc)
    (hq : ∀ e, ∃ l, q' e = q e ++ l) : Ready q' pc := by
  cases pc with
  | idle | test => trivial
  | front e | pop e =>
    obtain ⟨l, hl⟩ := hq e
    simp only [Ready, hl] at h ⊢
    simp [h]
  | push e tk =>
    obtain ⟨l, hl⟩ := hq e
    simp only [Ready, hl] at h ⊢
    simp [h]

/-- The front of a queue that waker `w` is about to pop stays where it is. -/
lemma head_left (hd : s.disturbs a w = false) (hw : s.wakers w = .pop e) :
    (s.left a e).head? = (s.executors e).waitingQueue.head? := by
  simp only [disturbs, hw, Bool.or_eq_false_iff, decide_eq_false_iff_not, not_not] at hd
  exact hd.1

lemma ready_left (hd : s.disturbs a w = false)
    (hr : WakerPc.Ready (fun e => (s.executors e).waitingQueue) (s.wakers w)) :
    WakerPc.Ready (s.left a) (s.wakers w) := by
  cases hw : s.wakers w with
  | idle | test => trivial
  | front e => simpa [disturbs, hw, WakerPc.Ready] using hd
  | push e tk => simpa [disturbs, hw, WakerPc.Ready] using hd
  | pop e =>
    have hhead := head_left hd hw
    rw [hw] at hr
    cases hq : (s.executors e).waitingQueue with
    | nil => exact absurd hq hr
    | cons tk rest =>
      rintro hnil
      simp [hq, hnil] at hhead

/-- Who is about to pop after one caller has gone on to another call. -/
lemma pop_of_update {pc : WakerPc} {w' : ℕ} (hpop : ∀ e, pc ≠ .pop e)
    (h : Function.update s.wakers w pc w' = .pop e) : w' ≠ w ∧ s.wakers w' = .pop e := by
  by_cases heq : w' = w
  · subst heq
    exact absurd (by simpa using h) (hpop e)
  · exact ⟨heq, by simpa [heq] using h⟩

/-- Nobody else is about to pop where a caller pushes. -/
lemma Undisturbed.not_pop_of_push (hu : s.Undisturbed a) (ha : a = .wakerStep w)
    (hw : s.wakers w = .push e tk) (w' : ℕ) : s.wakers w' ≠ .pop e := by
  intro hw'
  have hne : a ≠ .wakerStep w' := by
    rintro rfl
    cases ha
    simp [hw] at hw'
  have hd := hu w' hne
  simp [disturbs, hw', pushesAt, ha, hw] at hd

/-- What a pop leaves. -/
lemma waitingQueue_of_pop {rest : List CoTaskPtr} (ha : a = .wakerStep w)
    (hw : s.wakers w = .pop e) (hq : (s.executors e).waitingQueue = tk :: rest) (e' : ℕ) :
    (Function.update s.executors e { s.executors e with waitingQueue := rest } e').waitingQueue =
      s.left a e' := by
  have htakes : s.takes a = some (e, tk) := by simp [ha, takes, hw, hq]
  rw [left_of_takes htakes]
  by_cases hee' : e = e'
  · subst hee'
    simp [hq]
  · simp [hee', Ne.symm hee']

/-- A push keeps the callers in order: nobody else is about to pop the same queue. -/
lemma Orderly.push (ho : s.Orderly) (hu : s.Undisturbed a) (ha : a = .wakerStep w)
    (hw : s.wakers w = .push e tk) :
    Orderly { s with
      executors := Function.update s.executors e
        { s.executors e with awokenQueue := (s.executors e).awokenQueue ++ [tk] }
      wakers := Function.update s.wakers w (.pop e)
      wakes := s.wakes ++ [tk] } := by
  have hq : ∀ e', (Function.update s.executors e { s.executors e with
      awokenQueue := (s.executors e).awokenQueue ++ [tk] } e').waitingQueue =
      (s.executors e').waitingQueue := update_view CoExecutor.waitingQueue (by rfl)
  have hready := ho.ready w
  rw [hw] at hready
  have hold : ∀ w' e', Function.update s.wakers w (.pop e) w' = .pop e' →
      w' = w ∧ e' = e ∨ e' ≠ e ∧ s.wakers w' = .pop e' := by
    intro w' e' h
    by_cases heq : w' = w
    · subst heq
      simp only [Function.update_self, WakerPc.pop.injEq] at h
      exact .inl ⟨rfl, h.symm⟩
    · rw [Function.update_of_ne heq] at h
      exact .inr ⟨fun hee' => hu.not_pop_of_push ha hw w' (hee' ▸ h), h⟩
  refine ⟨?_, fun w₁ w₂ e' h₁ h₂ => ?_⟩
  · simp only [hq]
    refine (Function.forall_update_iff s.wakers fun _ pc =>
      WakerPc.Ready (fun e => (s.executors e).waitingQueue) pc).mpr ⟨?_, fun w' _ => ho.ready w'⟩
    intro hnil
    simp only [WakerPc.Ready] at hready
    simp [hnil] at hready
  · rcases hold w₁ e' h₁ with ⟨rfl, he₁⟩ | ⟨hne₁, hpop₁⟩ <;>
      rcases hold w₂ e' h₂ with ⟨rfl, he₂⟩ | ⟨hne₂, hpop₂⟩
    · rfl
    · exact absurd he₁ hne₂
    · exact absurd he₂ hne₁
    · exact ho.pop_unique w₁ w₂ e' hpop₁ hpop₂

/-- A pop keeps the callers in order: it takes away nothing that another one relies on. -/
lemma Orderly.pop {rest : List CoTaskPtr} (ho : s.Orderly) (hu : s.Undisturbed a)
    (ha : a = .wakerStep w) (hw : s.wakers w = .pop e)
    (hq : (s.executors e).waitingQueue = tk :: rest) :
    Orderly { s with
      executors := Function.update s.executors e { s.executors e with waitingQueue := rest }
      wakers := Function.update s.wakers w (.test e) } := by
  have hothers : ∀ w' ≠ w, WakerPc.Ready (s.left a) (s.wakers w') := by
    intro w' hne
    refine ready_left (hu w' ?_) (ho.ready w')
    rintro rfl
    cases ha
    exact hne rfl
  refine ⟨?_, fun w₁ w₂ e' h₁ h₂ => ?_⟩
  · simp only [waitingQueue_of_pop ha hw hq]
    exact (Function.forall_update_iff s.wakers fun _ pc => WakerPc.Ready (s.left a) pc).mpr
      ⟨trivial, hothers⟩
  · exact ho.pop_unique w₁ w₂ e' (pop_of_update (by simp) h₁).2 (pop_of_update (by simp) h₂).2

/-- **An undisturbed step keeps the callers in order.** -/
lemma Waking.orderly (h : Waking s a s') (ho : s.Orderly) (hu : s.Undisturbed a) : s'.Orderly := by
  cases h with
  | other ha heff hwakers hwakes =>
    refine ⟨fun w => ?_, fun w w' e => hwakers ▸ ho.pop_unique w w' e⟩
    exact hwakers ▸ (ho.ready w).append (heff.waitingQueue_of_wakes hwakes)
  | single ha heff hwakers hwakes hpushed htk hq =>
    refine ⟨fun w => ?_, fun w w' e => hwakers ▸ ho.pop_unique w w' e⟩
    rw [hwakers, funext hq]
    exact ready_left (hu w fun h => by simp [h, Act.isWakerStep] at ha) (ho.ready w)
  | @goes w pc ha hs' hold hpc hfront hread hpop =>
    subst hs'
    refine ⟨?_, ?_⟩
    · refine (Function.forall_update_iff s.wakers fun _ pc =>
        WakerPc.Ready (fun e => (s.executors e).waitingQueue) pc).mpr ⟨?_, fun w' _ => ho.ready w'⟩
      cases pc with
      | idle | test => trivial
      | front e => exact hfront e rfl
      | push e tk => exact hread e tk rfl
      | pop e => exact absurd rfl (hpop e)
    · exact fun w₁ w₂ e h₁ h₂ =>
        ho.pop_unique w₁ w₂ e (pop_of_update hpop h₁).2 (pop_of_update hpop h₂).2
  | push ha hw he hs' => exact hs' ▸ ho.push hu ha hw
  | pop ha hw he hq hs' => exact hs' ▸ ho.pop hu ha hw hq
  | @empty w e hw hq =>
    have hready := ho.ready w
    rcases hw with hw | hw <;> rw [hw] at hready <;> exact absurd hq hready

end Sched

end CoroutineCpp
