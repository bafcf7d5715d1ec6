import CoroutineCpp.Framework.Progress
import CoroutineCpp.Properties.FairPicks
import CoroutineCpp.Properties.ProcessMoves

/-!
# The picks of `Process`, access by access

`Process` tests its two queues, decides for one of them, and takes the front of that queue two
queue calls later; meanwhile the other threads push and steal.  Here the runs of
`Model/ProcessSteps.lean` are followed by runs of `readySystem`, where a pick is one step: the pick
is the decision, and the task decided on counts as taken from then on (`Picking`).  So the laws of
`Properties/FairPicks.lean` hold of the tasks that are taken access by access.

A steal may leave a task that is decided on or take it as well; the second is what
`Properties/StealRace.lean` is about, and the runs here are those without it.
-/

namespace CoroutineCpp

open Framework TransitionSystem

namespace LoopState

variable {s s' : LoopState} {a : LoopAct}

/-! ## What a step does to the ready queues -/

/-- The task a step takes from a ready queue, with the queue. -/
def taken (s : LoopState) (a : LoopAct) : Option (Bool × CoTaskPtr) :=
  match s.pc, a with
  | .assign b, .thread _ => ((s.ex.readyQueue b).head?.filter (· ≠ nullptr)).map (b, ·)
  | _, _ => none

/-- The tasks taken in a run, in order. -/
def takenIn (tr : List (LoopState × LoopAct)) : List (Bool × CoTaskPtr) :=
  tr.reverse.filterMap fun p => p.1.taken p.2

lemma takenIn_cons (p : LoopState × LoopAct) (tr : List (LoopState × LoopAct)) :
    takenIn (p :: tr) = takenIn tr ++ (p.1.taken p.2).toList := by
  rw [takenIn, takenIn, List.reverse_cons, List.filterMap_append]
  cases h : p.1.taken p.2 <;> simp [h]

/-- What a step does to the ready queues, to `last_retrieve_from_awoken` and to the decision. -/
inductive ReadyMove (s : LoopState) : LoopAct → LoopState → Prop
  | chooses {nowMs : ℕ} {b : Bool} (hpc : s.pc = .choose) (hq : s.ex.chooseQueue s.last = some b) :
      ReadyMove s (.thread nowMs) { s with pc := .assign b }
  | takes {nowMs : ℕ} {b : Bool} {tk : CoTaskPtr} {s' : LoopState} (hpc : s.pc = .assign b)
      (hq : s.ex.readyQueue b = tk :: s'.ex.readyQueue b)
      (hother : s'.ex.readyQueue (!b) = s.ex.readyQueue (!b)) (htk : tk ≠ nullptr)
      (hlast : s'.last = b) (hpc' : s'.pc = .count) : ReadyMove s (.thread nowMs) s'
  | restarts {timeoutMs : ℕ} {s' : LoopState} : ReadyMove s (.process timeoutMs) s'
  | steals {n : ℕ} :
      ReadyMove s (.giveUpTasks n) { s with ex := (s.ex.giveUpTasks [] n).1 }
  | arrives {c : ℕ} {b : Bool} {l : List CoTaskPtr} {s' : LoopState}
      (hq : s'.ex.readyQueue b = s.ex.readyQueue b ++ l)
      (hother : s'.ex.readyQueue (!b) = s.ex.readyQueue (!b)) (hlast : s'.last = s.last)
      (hpc : ∀ b, s'.pc = .assign b ↔ s.pc = .assign b) : ReadyMove s (.client c) s'
  | same {a : LoopAct} {s' : LoopState} (hq : ∀ b, s'.ex.readyQueue b = s.ex.readyQueue b)
      (hlast : s'.last = s.last) (hpc : ∀ b, s'.pc = .assign b ↔ s.pc = .assign b)
      (htaken : s.taken a = none) : ReadyMove s a s'

lemma taken_of_ne_thread (h : ∀ nowMs, a ≠ .thread nowMs) : s.taken a = none := by
  unfold taken
  split
  next nowMs _ => exact absurd rfl (h nowMs)
  next => rfl

lemma taken_of_pc (h : ∀ b, s.pc ≠ .assign b) : s.taken a = none := by
  unfold taken
  split
  next b _ hpc => exact absurd hpc (h b)
  next => rfl

/-- A step that leaves the queues and `last_retrieve_from_awoken` alone and neither starts from a
decision nor makes one. -/
lemma ReadyMove.of_pc (hq : ∀ b, s'.ex.readyQueue b = s.ex.readyQueue b) (hlast : s'.last = s.last)
    (hpc : ∀ b, s.pc ≠ .assign b) (hpc' : ∀ b, s'.pc ≠ .assign b) : ReadyMove s a s' :=
  .same hq hlast (fun b => iff_of_false (hpc' b) (hpc b)) (taken_of_pc hpc)

/-- A step of another thread that leaves all three alone. -/
lemma ReadyMove.of_other (hq : ∀ b, s'.ex.readyQueue b = s.ex.readyQueue b)
    (hlast : s'.last = s.last) (hpc : ∀ b, s'.pc = .assign b ↔ s.pc = .assign b)
    (ha : ∀ nowMs, a ≠ .thread nowMs) : ReadyMove s a s' :=
  .same hq hlast hpc (taken_of_ne_thread ha)

lemma notifyAll_assign_iff (pc : LoopPc) (b : Bool) :
    notifyAll pc = .assign b ↔ pc = .assign b := by
  cases pc <;> simp [notifyAll]

lemma threadStep_readyMove {nowMs : ℕ} (h : s.threadStep nowMs = some s') :
    ReadyMove s (.thread nowMs) s' := by
  unfold threadStep at h
  cases hpc : s.pc with
  | outside | inside | holding => simp [hpc] at h
  | choose =>
    simp only [hpc] at h
    obtain ⟨-, h⟩ := Option.ite_none_right_eq_some.mp h
    cases hq : s.ex.chooseQueue s.last with
    | none =>
      simp only [hq, Option.some.injEq] at h
      subst h
      exact .of_pc (fun _ => rfl) rfl (by simp [hpc]) (by simp)
    | some fromAwoken =>
      simp only [hq, Option.some.injEq] at h
      exact h ▸ .chooses hpc hq
  | assign b =>
    simp only [hpc] at h
    obtain ⟨-, h⟩ := Option.ite_none_right_eq_some.mp h
    cases hq : s.ex.readyQueue b with
    | nil =>
      have hassign : s.ex.assignRunnableTask b = none := by
        cases b <;> simp_all [CoExecutor.assignRunnableTask, ThreadSafeDeque.front]
      simp only [hassign, Option.some.injEq] at h
      subst h
      exact .same (fun _ => rfl) rfl (fun _ => Iff.rfl) (by simp [taken, hpc, hq])
    | cons tk rest =>
      obtain ⟨ex, hassign, htk, hrest, hother⟩ : ∃ ex, s.ex.assignRunnableTask b = some (ex, b) ∧
          ex.runningTask = tk ∧ ex.readyQueue b = rest ∧
          ex.readyQueue (!b) = s.ex.readyQueue (!b) := by
        cases b <;> simp_all [CoExecutor.assignRunnableTask]
      simp only [hassign] at h
      split at h
      next hnull =>
        obtain rfl := Option.some.inj h
        refine .same (fun _ => rfl) rfl (fun _ => Iff.rfl) ?_
        simp [taken, hpc, hq, ← htk, hnull]
      next hne =>
        obtain rfl := Option.some.inj h
        exact .takes hpc (by rw [hq, hrest]) hother (htk ▸ hne) rfl rfl
  | resume =>
    simp only [hpc, Option.some.injEq] at h
    subst h
    unfold resumeTask
    dsimp only
    split
    · exact .of_pc (fun _ => rfl) rfl (by simp [hpc]) (by simp [fail, hpc])
    · exact .of_pc (fun _ => rfl) rfl (by simp [hpc]) (by simp)
    · exact .of_pc (fun _ => rfl) rfl (by simp [hpc]) (by simp)
  | settle =>
    simp only [hpc, Option.some.injEq] at h
    subst h
    unfold settle
    dsimp only
    split
    · exact .of_pc (by simp [CoExecutor.readyQueue]) rfl (by simp [hpc]) (by simp)
    · split
      · exact .of_pc (by simp [CoExecutor.readyQueue]) rfl (by simp [hpc]) (by simp)
      · exact .of_pc (by simp [CoExecutor.readyQueue]) rfl (by simp [hpc]) (by simp)
    · exact .of_pc (fun _ => rfl) rfl (by simp [hpc]) (by simp)
  | idleClean =>
    simp only [hpc, Option.some.injEq] at h
    subst h
    obtain ⟨hrun, -, hawoken, -⟩ := s.ex.idleClean_frame nowMs
    refine .of_pc ?_ rfl (by simp [hpc]) (by simp)
    intro b
    cases b
    · exact hrun
    · exact hawoken
  | _ =>
    simp only [hpc] at h
    repeat' split at h
    all_goals cases h
    all_goals exact .of_pc (fun _ => rfl) rfl (by simp [hpc]) (by simp)

lemma clientStep_readyMove {c : ℕ} (h : s.clientStep c = some s') :
    ReadyMove s (.client c) s' := by
  unfold clientStep at h
  cases hpc : s.clients c with
  | idle => simp [hpc] at h
  | push tk =>
    simp only [hpc] at h
    obtain ⟨-, h⟩ := Option.ite_none_right_eq_some.mp h
    obtain rfl := Option.some.inj h
    exact .arrives (b := false) (l := [tk]) rfl rfl rfl fun _ => Iff.rfl
  | pushAll tks =>
    simp only [hpc] at h
    obtain ⟨-, h⟩ := Option.ite_none_right_eq_some.mp h
    obtain rfl := Option.some.inj h
    exact .arrives (b := false) (l := tks) (CoExecutor.foldl_pushBack _ _) rfl rfl
      fun _ => Iff.rfl
  | pushAwoken tk kept =>
    simp only [hpc, Option.some.injEq] at h
    subst h
    exact .arrives (b := true) (l := [if s.owned tk || kept then tk else nullptr]) rfl rfl rfl
      fun _ => Iff.rfl
  | pushFront tk =>
    simp only [hpc, Option.some.injEq] at h
    subst h
    exact .arrives (b := true) (l := [tk]) rfl rfl rfl fun _ => Iff.rfl
  | notify locked =>
    simp only [hpc, Option.some.injEq] at h
    subst h
    exact .of_other (fun _ => rfl) rfl (notifyAll_assign_iff _) (by simp)
  | readWaiting locked | unlock | testWaiting | frontWaiting | eraseWaiting tk kept | popWaiting =>
    simp only [hpc] at h
    (try split at h) <;> cases h
    all_goals exact .of_other (fun _ => rfl) rfl (fun _ => Iff.rfl) (by simp)

/-- **Every step moves the ready queues so.** -/
lemma step_readyMove (h : s.step a = some s') : ReadyMove s a s' := by
  have h := act_of_step h
  cases a with
  | process timeoutMs => exact .restarts
  | thread nowMs => exact threadStep_readyMove h
  | client c => exact clientStep_readyMove h
  | giveUpTasks n =>
    obtain ⟨-, h⟩ := Option.ite_none_right_eq_some.mp h
    exact Option.some.inj h ▸ .steals
  | spurious =>
    simp only [act] at h
    split at h <;> cases h
    next hpc => exact .of_pc (fun _ => rfl) rfl (by simp [hpc]) (by simp)
  | timeout =>
    simp only [act] at h
    repeat' split at h
    all_goals cases h
    next hpc _ => exact .of_pc (fun _ => rfl) rfl (by simp [hpc]) (by simp)
  | holdPush | holdSwitch | yield | finish | throw =>
    obtain ⟨hpc, h⟩ := Option.ite_none_right_eq_some.mp h
    obtain rfl := Option.some.inj h
    exact .of_pc (fun _ => rfl) rfl (by simp [hpc]) (by simp [switchOut])
  | addTask c tk | addTasks c tks | wakeupFromEntry c tk kept | wakeupAllTasks c | isBlocking v =>
    obtain ⟨-, h⟩ := Option.ite_none_right_eq_some.mp h
    obtain rfl := Option.some.inj h
    exact .of_other (fun _ => rfl) rfl (fun _ => Iff.rfl) (by simp)
  | readClock v | readTick v | readSwitchCnt v | readSwitchedCnt v =>
    obtain ⟨ev, -, -, rfl⟩ := readOperand_eq_some h
    exact .of_other (fun _ => rfl) rfl (fun _ => Iff.rfl) (by simp)
  | stop | elapse us =>
    obtain rfl := Option.some.inj h
    exact .of_other (fun _ => rfl) rfl (fun _ => Iff.rfl) (by simp)

end LoopState

/-! ## The steps of `readySystem` that follow -/

lemma CoExecutor.giveUpTasks_runnableQueue (giveups : ThreadSafeDeque CoTaskPtr) (n : ℕ)
    (ex : CoExecutor) :
    (ex.giveUpTasks giveups n).1.runnableQueue =
      ex.runnableQueue.take (if n > 0 then ex.runnableQueue.length - n else 0) := by
  simp only [CoExecutor.giveUpTasks, ThreadSafeDeque.popBackAndAppend]
  congr 1
  split <;> omega

namespace ReadyState

variable {r : ReadyState} {b : Bool}

/-- Tasks arrive at the back of either queue. -/
lemma exists_arrival (r : ReadyState) (b : Bool) (tks : List CoTaskPtr) :
    ∃ a r', r.step a = some r' ∧ a.isProcess = false ∧ a ≠ .pick ∧
      r'.ex.readyQueue b = r.ex.readyQueue b ++ tks ∧
      r'.ex.readyQueue (!b) = r.ex.readyQueue (!b) ∧ r'.last = r.last ∧ r'.picks = r.picks := by
  cases b with
  | false =>
    refine ⟨.addTasks tks, _, rfl, rfl, by simp, ?_, rfl, rfl, rfl⟩
    exact CoExecutor.foldl_pushBack tks _
  | true =>
    refine ⟨.awaken tks, _, rfl, rfl, by simp, ?_, rfl, rfl, rfl⟩
    exact CoExecutor.foldl_pushBack tks _

lemma step_pick (hst : r.ex.isStopping = false) (h : r.ex.chooseQueue r.last = some b) :
    ∃ r' tk, r.step .pick = some r' ∧ r.ex.readyQueue b = tk :: r'.ex.readyQueue b ∧
      r'.ex.readyQueue (!b) = r.ex.readyQueue (!b) ∧ r'.last = b ∧
      r'.picks = r.picks ++ [(b, tk)] := by
  have hstep : ∀ p, r.ex.assignRunnableTask b = some p → r.step .pick =
      some { r with ex := p.1, last := p.2, picks := r.picks ++ [(b, p.1.runningTask)] } := by
    intro p hassign
    simp only [step, hst, h, hassign, Option.map_some]
    exact if_neg Bool.false_ne_true
  rcases CoExecutor.assignRunnableTask_of_chooseQueue h with
    ⟨rfl, tk, rest, hq, hassign⟩ | ⟨rfl, tk, rest, hq, hassign⟩
  · exact ⟨_, tk, hstep _ hassign, hq, rfl, rfl, rfl⟩
  · exact ⟨_, tk, hstep _ hassign, hq, rfl, rfl, rfl⟩

/-- The pick that `Process` decides on, also where the executor is told to stop meanwhile. -/
lemma exists_pick (h : r.ex.chooseQueue r.last = some b) :
    ∃ ex r₁ r₂ tk, r.step (.rest ex) = some r₁ ∧ r₁.step .pick = some r₂ ∧
      r₁.ex.readyQueue = r.ex.readyQueue ∧ r.ex.readyQueue b = tk :: r₂.ex.readyQueue b ∧
      r₂.ex.readyQueue (!b) = r.ex.readyQueue (!b) ∧ r₂.last = b ∧
      r₂.picks = r.picks ++ [(b, tk)] := by
  have hrest : r.step (.rest { r.ex with isStopping := false }) =
      some { r with ex := { r.ex with isStopping := false } } := if_pos fun _ => rfl
  obtain ⟨r₂, tk, hpick, hq⟩ :=
    step_pick (r := { r with ex := { r.ex with isStopping := false } }) rfl h
  exact ⟨_, _, r₂, tk, hrest, hpick, rfl, hq⟩

end ReadyState

/-! ## The refinement -/

namespace LoopState

variable {s s₀ s' : LoopState} {a : LoopAct} {tr : List (LoopState × LoopAct)}

/-- How the two ready queues and the picks look from `readySystem`: a task that is decided on has
left its queue. -/
inductive Picking (s : LoopState) (picks : List (Bool × CoTaskPtr)) (r : ReadyState) : Prop
  | undecided (hpc : ∀ b, s.pc ≠ .assign b) (hq : ∀ b, r.ex.readyQueue b = s.ex.readyQueue b)
      (hlast : r.last = s.last) (hpicks : r.picks = picks)
  | decided {b : Bool} {t : CoTaskPtr} (hpc : s.pc = .assign b)
      (hq : s.ex.readyQueue b = t :: r.ex.readyQueue b)
      (hother : r.ex.readyQueue (!b) = s.ex.readyQueue (!b)) (hlast : r.last = b)
      (hpicks : r.picks = picks ++ [(b, t)])

/-- One call of `Process`, and `GiveUpTasks` leaves a task while the front of the runnable queue is
decided on. -/
def Spared (s : LoopState) : LoopAct → Prop
  | .process _ => False
  | .giveUpTasks n =>
    s.pc = .assign false → (s.ex.giveUpTasks [] n).1.runnableQueue ≠ []
  | _ => True

instance (s : LoopState) : ∀ a, Decidable (s.Spared a)
  | .process _ => inferInstanceAs (Decidable False)
  | .giveUpTasks _ => inferInstanceAs (Decidable (_ → _))
  | .thread _ | .spurious | .timeout | .holdPush | .holdSwitch | .yield | .finish | .throw _
  | .addTask _ _ | .addTasks _ _ | .wakeupFromEntry _ _ _ | .wakeupAllTasks _ | .client _ | .stop
  | .isBlocking _ | .readClock _ | .readTick _ | .readSwitchCnt _ | .readSwitchedCnt _
  | .elapse _ => inferInstanceAs (Decidable True)

/-- The decisions are made with ready queues that meet `Q`. -/
def DecidesWith (Q : (Bool → List CoTaskPtr) → Prop) (s : LoopState) (a : LoopAct) : Prop :=
  s.pc = .choose → (∃ nowMs, a = .thread nowMs) → Q s.ex.readyQueue

/-- The same of `readySystem`. -/
def PicksWith (Q : (Bool → List CoTaskPtr) → Prop) (r : ReadyState) (a : ReadyAct) : Prop :=
  a.isProcess = false ∧ (a = .pick → Q r.ex.readyQueue)

lemma picksWith_step {Q : (Bool → List CoTaskPtr) → Prop} {ex₀ : CoExecutor} {last₀ : Bool}
    {r r' : ReadyState} {a : ReadyAct} (hr : (readySystem ex₀ last₀).ReachableUnder (PicksWith Q) r)
    (ha : PicksWith Q r a) (hs : r.step a = some r') :
    (readySystem ex₀ last₀).ReachableUnder (PicksWith Q) r' :=
  .step hr ha hs

/-- The decision itself. -/
lemma Picking.chooses {Q : (Bool → List CoTaskPtr) → Prop} {ex₀ : CoExecutor} {last₀ b : Bool}
    {picks : List (Bool × CoTaskPtr)} {r : ReadyState} (h : Picking s picks r)
    (hr : (readySystem ex₀ last₀).ReachableUnder (PicksWith Q) r) (hpc : s.pc = .choose)
    (hq : s.ex.chooseQueue s.last = some b) (hQ : Q s.ex.readyQueue) :
    ∃ r', (readySystem ex₀ last₀).ReachableUnder (PicksWith Q) r' ∧
      Picking { s with pc := .assign b } picks r' := by
  cases h with
  | decided hpc' => simp [hpc] at hpc'
  | undecided _ hready hlast hpicks =>
    have hchoose : r.ex.chooseQueue r.last = some b := by
      have hrun : r.ex.runnableQueue = s.ex.runnableQueue := hready false
      have hawoken : r.ex.awokenQueue = s.ex.awokenQueue := hready true
      rw [← hq, hlast]
      simp only [CoExecutor.chooseQueue, hrun, hawoken]
    obtain ⟨ex, r₁, r₂, tk, hrest, hpick, hsame, hqb, hother, hlast', hpicks'⟩ :=
      ReadyState.exists_pick hchoose
    have hr₁ := picksWith_step hr ⟨rfl, by simp⟩ hrest
    refine ⟨r₂, picksWith_step hr₁ ⟨rfl, fun _ => ?_⟩ hpick, ?_⟩
    · rw [hsame, funext hready]
      exact hQ
    · exact .decided rfl (by rw [← hready b, hqb]) (by rw [hother, hready]) hlast'
        (by rw [hpicks', hpicks])

/-- A steal that leaves the task that is decided on. -/
lemma Picking.steals {picks : List (Bool × CoTaskPtr)} {r : ReadyState} {n : ℕ}
    (h : Picking s picks r) (hsp : s.Spared (.giveUpTasks n)) :
    ∃ r', r.step (.giveUpTasks n) = some r' ∧
      Picking { s with ex := (s.ex.giveUpTasks [] n).1 } picks r' := by
  refine ⟨_, rfl, ?_⟩
  cases h with
  | undecided hpc hready hlast hpicks =>
    refine .undecided hpc ?_ hlast hpicks
    intro b
    cases b with
    | true => exact hready true
    | false =>
      have hrun : r.ex.runnableQueue = s.ex.runnableQueue := hready false
      simp only [CoExecutor.readyQueue_false, CoExecutor.giveUpTasks_runnableQueue, hrun]
  | @decided b tk hpc hq hother hlast hpicks =>
    cases b with
    | true =>
      refine .decided hpc hq ?_ hlast hpicks
      have hrun : r.ex.runnableQueue = s.ex.runnableQueue := hother
      simp only [Bool.not_true, CoExecutor.readyQueue_false, CoExecutor.giveUpTasks_runnableQueue,
        hrun]
    | false =>
      refine .decided (t := tk) hpc ?_ hother hlast hpicks
      have hleft := hsp hpc
      have hrun : s.ex.runnableQueue = tk :: r.ex.runnableQueue := hq
      simp only [CoExecutor.readyQueue_false, CoExecutor.giveUpTasks_runnableQueue, hrun,
        List.length_cons] at hleft ⊢
      split
      next hn =>
        rw [if_pos hn] at hleft
        have hlt : n ≤ r.ex.runnableQueue.length := by
          by_contra hge
          exact hleft (by rw [show r.ex.runnableQueue.length + 1 - n = 0 by omega, List.take_zero])
        rw [show r.ex.runnableQueue.length + 1 - n = r.ex.runnableQueue.length - n + 1 by omega,
          List.take_succ_cons]
      next hn => simp [hn] at hleft

/-- Tasks that arrive at the back of a ready queue. -/
lemma Picking.arrives {picks : List (Bool × CoTaskPtr)} {r r' : ReadyState} {b : Bool}
    {tks : List CoTaskPtr} (h : Picking s picks r)
    (hq : s'.ex.readyQueue b = s.ex.readyQueue b ++ tks)
    (hother : s'.ex.readyQueue (!b) = s.ex.readyQueue (!b)) (hlast : s'.last = s.last)
    (hpc : ∀ b, s'.pc = .assign b ↔ s.pc = .assign b)
    (hq' : r'.ex.readyQueue b = r.ex.readyQueue b ++ tks)
    (hother' : r'.ex.readyQueue (!b) = r.ex.readyQueue (!b)) (hlast' : r'.last = r.last)
    (hpicks' : r'.picks = r.picks) : Picking s' picks r' := by
  cases h with
  | undecided hpc₀ hready hlast₀ hpicks =>
    refine .undecided (fun b => mt (hpc b).mp (hpc₀ b)) ?_ (by rw [hlast', hlast₀, hlast])
      (by rw [hpicks', hpicks])
    intro b'
    obtain rfl | rfl : b' = b ∨ b' = !b := by cases b <;> cases b' <;> simp
    · rw [hq', hready, hq]
    · rw [hother', hready, hother]
  | @decided b' tk hpc₀ hq₀ hother₀ hlast₀ hpicks =>
    refine .decided (t := tk) ((hpc b').mpr hpc₀) ?_ ?_ (by rw [hlast', hlast₀])
      (by rw [hpicks', hpicks])
    all_goals obtain rfl | rfl : b' = b ∨ b = !b' := by cases b <;> cases b' <;> simp
    · rw [hq, hq₀, hq', List.cons_append]
    · rw [Bool.not_not] at hother hother'
      rw [hother, hq₀, hother']
    · rw [hother', hother₀, hother]
    · rw [hq', hother₀, hq]

/-- **One access is followed** by steps of `readySystem`, none for most. -/
lemma Picking.step {Q : (Bool → List CoTaskPtr) → Prop} {ex₀ : CoExecutor} {last₀ : Bool}
    {picks : List (Bool × CoTaskPtr)} {r : ReadyState} (h : Picking s picks r)
    (hr : (readySystem ex₀ last₀).ReachableUnder (PicksWith Q) r) (hsp : s.Spared a)
    (hQ : s.DecidesWith Q a) (hs : s.step a = some s') :
    ∃ r', (readySystem ex₀ last₀).ReachableUnder (PicksWith Q) r' ∧
      Picking s' (picks ++ (s.taken a).toList) r' := by
  cases step_readyMove hs with
  | chooses hpc hq =>
    obtain ⟨r', hr', h'⟩ := h.chooses hr hpc hq (hQ hpc ⟨_, rfl⟩)
    rw [taken_of_pc (by simp [hpc]), Option.toList_none, List.append_nil]
    exact ⟨r', hr', h'⟩
  | @takes nowMs b tk _ hpc hq hother htk hlast hpc' =>
    cases h with
    | undecided hpc'' => exact absurd hpc (hpc'' b)
    | @decided b' tk' hpc'' hq' hother' hlast' hpicks' =>
      obtain rfl : b' = b := by simpa [hpc''] using hpc
      obtain ⟨rfl, hrest⟩ : tk' = tk ∧ r.ex.readyQueue b' = s'.ex.readyQueue b' := by
        simpa [hq'] using hq
      have htaken : s.taken (.thread nowMs) = some (b', tk') := by
        simp [taken, hpc'', hq', htk]
      rw [htaken]
      refine ⟨r, hr, .undecided (by simp [hpc']) ?_ (by rw [hlast', hlast]) hpicks'⟩
      intro b
      obtain rfl | rfl : b = b' ∨ b = !b' := by cases b <;> cases b' <;> simp
      · exact hrest
      · rw [hother', hother]
  | restarts => exact hsp.elim
  | steals =>
    obtain ⟨r', hstep, h'⟩ := h.steals hsp
    rw [taken_of_ne_thread (by simp), Option.toList_none, List.append_nil]
    exact ⟨r', picksWith_step hr ⟨rfl, by simp⟩ hstep, h'⟩
  | @arrives c b tks _ hq hother hlast hpc =>
    obtain ⟨a', r', hstep, hproc, hpick, hq', hother', hlast', hpicks'⟩ := r.exists_arrival b tks
    rw [taken_of_ne_thread (by simp), Option.toList_none, List.append_nil]
    exact ⟨r', picksWith_step hr ⟨hproc, fun heq => absurd heq hpick⟩ hstep,
      h.arrives hq hother hlast hpc hq' hother' hlast' hpicks'⟩
  | same hq hlast hpc htaken =>
    rw [htaken, Option.toList_none, List.append_nil]
    refine ⟨r, hr, ?_⟩
    cases h with
    | undecided hpc' hready hlast' hpicks =>
      exact .undecided (fun b => mt (hpc b).mp (hpc' b)) (fun b => by rw [hready, hq])
        (by rw [hlast', hlast]) hpicks
    | decided hpc' hq' hother hlast' hpicks =>
      exact .decided ((hpc _).mpr hpc') (by rw [hq, hq']) (by rw [hother, hq]) hlast' hpicks

/-- **A whole run is followed**, and some run of `readySystem` has made just the picks that have
been carried out. -/
lemma picking_run {Q : (Bool → List CoTaskPtr) → Prop} {G : LoopState → LoopAct → Prop}
    (hG : ∀ s a, G s a → s.Spared a ∧ s.DecidesWith Q a) (hpc : ∀ b, s₀.pc ≠ .assign b)
    (h : (loopSystem.startAt s₀).Exec G tr s) :
    (∃ r, (readySystem s₀.ex s₀.last).ReachableUnder (PicksWith Q) r ∧ Picking s (takenIn tr) r) ∧
      ∃ r, (readySystem s₀.ex s₀.last).ReachableUnder (PicksWith Q) r ∧ r.picks = takenIn tr := by
  induction h with
  | @init s hs =>
    obtain rfl : s₀ = s := Eq.symm hs
    have hinit : (readySystem s₀.ex s₀.last).ReachableUnder (PicksWith Q)
        { ex := s₀.ex, last := s₀.last } := .init rfl
    exact ⟨⟨_, hinit, .undecided hpc (fun _ => rfl) rfl rfl⟩, _, hinit, rfl⟩
  | @step tr s s' a _ hGa hs ih =>
    obtain ⟨⟨r, hr, hpick⟩, r₁, hr₁, hpicks₁⟩ := ih
    obtain ⟨hsp, hQ⟩ := hG s a hGa
    rw [takenIn_cons]
    refine ⟨hpick.step hr hsp hQ hs, ?_⟩
    cases htaken : s.taken a with
    | none =>
      rw [Option.toList_none, List.append_nil]
      exact ⟨r₁, hr₁, hpicks₁⟩
    | some x =>
      cases hpick with
      | undecided hpc' => simp [taken_of_pc hpc'] at htaken
      | @decided b tk hpc' hq _ _ hpicks =>
        refine ⟨r, hr, ?_⟩
        obtain rfl : (b, tk) = x := by
          unfold taken at htaken
          rw [hpc'] at htaken
          cases a <;> simp [hq, Option.filter] at htaken
          exact htaken.2
        rw [hpicks, Option.toList_some]

/-- While a queue of `readySystem` is not empty, the other one gets at most one pick more. -/
lemma readySystem_lead_le {ex : CoExecutor} {last b : Bool} {r : ReadyState}
    (h : (readySystem ex last).ReachableUnder (PicksWith fun q => q b ≠ []) r) :
    (Server.takenFrom (!b) r.picks).length ≤ (Server.takenFrom b r.picks).length + 1 := by
  refine Server.lead_le (G := fun s a => a.isRestart = false ∧ (a = .pick → s.queue b ≠ []))
    (fun _ _ h => h) (ReadyState.server_reachable ?_ h)
  rintro s a ⟨hcall, hne⟩
  cases a with
  | pick => exact ⟨rfl, fun _ => hne rfl⟩
  | process => cases hcall
  | _ => exact ⟨rfl, fun h => by cases h⟩

/-- **The picks are fair access by access.**  From any state in which `Process` has not decided on
a queue, whatever the other threads do between any two of its accesses, within one call of
`Process` and with no steal of the task it has decided on:

* the tasks it takes are the picks of a run of `readySystem`;
* while a queue is not empty when `Process` decides, the other one gets at most one task more;
* a task with `k` tasks ahead of it in the awoken queue is taken, after these, within the next
  `2 * k + 2` tasks that are taken. -/
theorem taken_fairly (hpc : ∀ b, s₀.pc ≠ .assign b) :
    (∀ tr s, (loopSystem.startAt s₀).Exec Spared tr s →
      ∃ r, (readySystem s₀.ex s₀.last).ReachableUnder ReadyState.OneCall r ∧
        r.picks = takenIn tr) ∧
    (∀ b tr s, (loopSystem.startAt s₀).Exec
        (fun s a => s.Spared a ∧ s.DecidesWith (fun q => q b ≠ []) a) tr s →
      (Server.takenFrom (!b) (takenIn tr)).length ≤
        (Server.takenFrom b (takenIn tr)).length + 1) ∧
    (∀ ahead tk behind tr s, s₀.ex.awokenQueue = ahead ++ tk :: behind →
      (loopSystem.startAt s₀).Exec Spared tr s → 2 * ahead.length + 2 ≤ (takenIn tr).length →
      ahead ++ [tk] <+: Server.takenFrom true ((takenIn tr).take (2 * ahead.length + 2))) := by
  have hall : ∀ (s : LoopState) a, s.Spared a → s.Spared a ∧ s.DecidesWith (fun _ => True) a :=
    fun s a h => ⟨h, fun _ _ => trivial⟩
  refine ⟨fun tr s h => ?_, fun b tr s h => ?_, fun ahead tk behind tr s hq h hlen => ?_⟩
  · obtain ⟨-, r, hr, hpicks⟩ := picking_run hall hpc h
    exact ⟨r, hr.weaken fun _ _ h => h.1, hpicks⟩
  · obtain ⟨-, r, hr, hpicks⟩ := picking_run (fun _ _ h => h) hpc h
    rw [← hpicks]
    exact readySystem_lead_le hr
  · obtain ⟨-, r, hr, hpicks⟩ := picking_run hall hpc h
    rw [← hpicks] at hlen ⊢
    exact ReadyState.awoken_picked_within (fun _ _ h => h.1) hq hr hlen

/-- Two awoken and two runnable tasks; a task is awoken and one is stolen while `Process` has
decided on the first. -/
theorem taken_fairly_interleaved :
    ∃ tr s, (loopSystem.startAt
        { pc := .choose
          ex := { awokenQueue := [1, 2], runnableQueue := [3, 4] }
          clients := fun _ => .pushAwoken 5 true }).Exec Spared tr s ∧
      takenIn tr = [(true, 1), (false, 3), (true, 2), (true, 5)] ∧
      [1] ++ [2] <+: Server.takenFrom true ((takenIn tr).take 4) := by
  obtain ⟨tr, s, h, hp⟩ := exists_exec_of_traceUnder (G := Spared)
    (M := loopSystem.startAt
      { pc := .choose
        ex := { awokenQueue := [1, 2], runnableQueue := [3, 4] }
        clients := fun _ => .pushAwoken 5 true })
    (List.flatten
      [[.thread 0, .client 0, .giveUpTasks 1], List.replicate 4 (.thread 0), [.finish],
        List.replicate 9 (.thread 0), [.finish], List.replicate 9 (.thread 0), [.finish],
        List.replicate 9 (.thread 0)])
    (fun tr _ => takenIn tr = [(true, 1), (false, 3), (true, 2), (true, 5)]) rfl (by decide)
  simp only [decide_eq_true_eq] at hp
  exact ⟨tr, s, h, hp, (taken_fairly (by simp)).2.2 [1] 2 [] tr s rfl h (by simp [hp])⟩

end LoopState

end CoroutineCpp
