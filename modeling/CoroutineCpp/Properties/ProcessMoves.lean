import CoroutineCpp.Model.ProcessSteps

/-!
# What a step around one executor can do

`Effect` lists the ways a step changes the state of `Model/ProcessSteps.lean`, each with the tests
that were made.  Most steps only move the thread (`ThreadMove`) or one client (`ClientMove`); the
others change a queue, a flag, a counter or an evaluation.  The invariants of the wait, of the
finished queue and of `IsBlocking` are proved by cases on the effect.
-/

namespace CoroutineCpp

open Framework TransitionSystem

namespace LoopState

/-- The steps that change nothing but where the thread stands. -/
inductive ThreadMove (s : LoopState) : LoopPc → LoopPc → Prop
  | exit (h : s.ex.isStopping = true) : ThreadMove s .test .outside
  | go (h : s.ex.isStopping = false) : ThreadMove s .test .choose
  | idle (hrun : s.ex.runnableQueue = []) (hawoken : s.ex.awokenQueue = []) :
      ThreadMove s .choose .setWaiting
  | picked (fromAwoken : Bool) : ThreadMove s .choose (.assign fromAwoken)
  | keep (h : s.ex.finishedQueue.length < triggerGcTaskSize) : ThreadMove s .gcTest .test
  | found {timedOut : Bool} {nowMs : ℕ} (h : s.ex.predicate nowMs = true) :
      ThreadMove s (.evaluate timedOut) .leave
  | missed (hrun : s.ex.runnableQueue = []) (hawoken : s.ex.awokenQueue = []) :
      ThreadMove s (.evaluate false) .block
  | sleep : ThreadMove s .block (.blocked false)
  | woken (notified timedOut : Bool) : ThreadMove s (.blocked notified) (.evaluate timedOut)

/-- The steps that change nothing but where a client stands. -/
inductive ClientMove (s : LoopState) : ClientPc → ClientPc → Prop
  | addTask {tk : CoTaskPtr} (hne : tk ≠ nullptr) : ClientMove s .idle (.push tk)
  | addNull : ClientMove s .idle .idle
  | addTasks (tks : List CoTaskPtr) : ClientMove s .idle (.pushAll tks)
  | wakeup (tk : CoTaskPtr) (kept : Bool) : ClientMove s .idle (.eraseWaiting tk kept)
  | wakeupAll : ClientMove s .idle .testWaiting
  | waits {locked : Bool} (h : s.ex.waiting = true) :
      ClientMove s (.readWaiting locked) (.notify locked)
  | awake {locked : Bool} (h : s.ex.waiting = false) :
      ClientMove s (.readWaiting locked) (if locked then .unlock else .idle)
  | absent {tk : CoTaskPtr} {kept : Bool} : ClientMove s (.eraseWaiting tk kept) .idle
  | allAwoken : ClientMove s .testWaiting .idle
  | more : ClientMove s .testWaiting .frontWaiting
  | front (tk : CoTaskPtr) : ClientMove s .frontWaiting (.pushFront tk)

/-- The queue `AssignRunnableTask` takes from. -/
inductive Assigned (ex : CoExecutor) : CoExecutor → Prop
  | awoken {tk : CoTaskPtr} {rest : List CoTaskPtr} (h : ex.awokenQueue = tk :: rest) :
      Assigned ex { ex with runningTask := tk, awokenQueue := rest }
  | runnable {tk : CoTaskPtr} {rest : List CoTaskPtr} (h : ex.runnableQueue = tk :: rest) :
      Assigned ex { ex with runningTask := tk, runnableQueue := rest }

/-- The push of a wakeup onto the awoken queue. -/
inductive Woken : ClientPc → ClientPc → CoTaskPtr → Prop
  | entry {tk tk' : CoTaskPtr} {kept : Bool} : Woken (.pushAwoken tk kept) .idle tk'
  | front {tk : CoTaskPtr} : Woken (.pushFront tk) .popWaiting tk

/-- One step, with the label `a`. -/
inductive Effect (s : LoopState) (a : LoopAct) : LoopState → Prop
  | enter (timeoutMs : ℕ) (hpc : s.pc = .outside) :
      Effect s a { s with pc := .test, timeoutMs := timeoutMs, last := false }
  | threadMove {pc : LoopPc} (h : ThreadMove s s.pc pc) : Effect s a { s with pc := pc }
  | assign {fromAwoken last : Bool} {ex : CoExecutor} (hpc : s.pc = .assign fromAwoken)
      (h : Assigned s.ex ex) : Effect s a { s with pc := .count, ex := ex, last := last }
  | count (ha : ∃ nowMs, a = .thread nowMs) (hpc : s.pc = .count) :
      Effect s a { s with pc := .stamp, ex := { s.ex with switchCnt := s.ex.switchCnt + 1 } }
  | stamp (ha : ∃ nowMs, a = .thread nowMs) (hpc : s.pc = .stamp) :
      Effect s a
        { s with pc := .resume, ex := { s.ex with tick := s.nowUs }, stamps := s.stamps + 1 }
  | resumeOver (hpc : s.pc = .resume) :
      Effect s a { s with
        pc := .counted, resumes := s.resumes ++ [s.nowUs], returned := s.returned + 1 }
  | resume {tasks : CoTaskPtr → Coroutine} (hpc : s.pc = .resume) :
      Effect s a { s with pc := .inside, resumes := s.resumes ++ [s.nowUs], tasks := tasks }
  | counted (hpc : s.pc = .counted) :
      Effect s a { s with pc := .settle, ex := { s.ex with switchedCnt := s.ex.switchedCnt + 1 } }
  | held (hpc : s.pc = .settle) : Effect s a { s with pc := .gcTest }
  | finished {tk : CoTaskPtr} (hpc : s.pc = .settle) :
      Effect s a { s with
        pc := .gcTest
        ex := { s.ex with
          finishedQueue := s.ex.finishedQueue ++ [s.ex.runningTask], runningTask := tk } }
  | thrown {ex : ExceptionPtr} (ha : ∃ nowMs, a = .thread nowMs) (hpc : s.pc = .settle)
      (hst : (s.tasks s.ex.runningTask).status = .except)
      (hex : (s.tasks s.ex.runningTask).exPtr = some ex) :
      Effect s a { s with
        pc := .outside
        ex := { s.ex with
          finishedQueue := s.ex.finishedQueue ++ [s.ex.runningTask], runningTask := nullptr }
        thrown := s.thrown ++ [ex] }
  | gc (nowMs : ℕ) (hpc : s.pc = .gcTest) :
      Effect s a { s with
        pc := .test, ex := { s.ex with lastGcTick := nowMs, finishedQueue := [] } }
  | setWaiting (hpc : s.pc = .setWaiting) :
      Effect s a { s with pc := .evaluate false, ex := { s.ex with waiting := true } }
  | timedOut (hpc : s.pc = .evaluate true) :
      Effect s a { s with pc := .leave, ex := { s.ex with isStopping := true } }
  | leave {cleanRightNow : Bool} (hpc : s.pc = .leave) :
      Effect s a { s with
        pc := .idleClean, ex := { s.ex with waiting := false, cleanRightNow := cleanRightNow } }
  | idleClean {cleanRightNow : Bool} {lastGcTick : ℕ} {finishedQueue : List CoTaskPtr}
      (hpc : s.pc = .idleClean)
      (hfin : finishedQueue = s.ex.finishedQueue ∨ finishedQueue = []) :
      Effect s a { s with
        pc := .test
        ex := { s.ex with
          cleanRightNow := cleanRightNow, lastGcTick := lastGcTick
          finishedQueue := finishedQueue } }
  | holdPush (hpc : s.pc = .inside) :
      Effect s a { s with
        pc := .holding
        ex := { s.ex with waitingQueue := s.ex.waitingQueue ++ [s.ex.runningTask] } }
  | switchOut {tasks : CoTaskPtr → Coroutine} (hpc : s.pc = .inside ∨ s.pc = .holding) :
      Effect s a { s with pc := .counted, returned := s.returned + 1, tasks := tasks }
  | clientMove {c : ℕ} {pc : ClientPc} (h : ClientMove s (s.clients c) pc) :
      Effect s a (s.setClient c pc)
  | push {c : ℕ} {tk : CoTaskPtr} (hpc : s.clients c = .push tk) (hfree : s.queueLock = none) :
      Effect s a { s.setClient c (.readWaiting false) with
        ex := { s.ex with runnableQueue := s.ex.runnableQueue ++ [tk] } }
  | pushAll {c : ℕ} {tks : List CoTaskPtr} (hpc : s.clients c = .pushAll tks)
      (hfree : s.queueLock = none) :
      Effect s a { s.setClient c (.readWaiting true) with
        queueLock := some c, ex := { s.ex with runnableQueue := s.ex.runnableQueue ++ tks } }
  | notify {c : ℕ} {locked : Bool} (ha : a = .client c) (hpc : s.clients c = .notify locked) :
      Effect s a
        { s.setClient c (if locked then .unlock else .idle) with pc := notifyAll s.pc }
  | unlock {c : ℕ} (hpc : s.clients c = .unlock) :
      Effect s a { s.setClient c .idle with queueLock := none }
  | erase {c : ℕ} {tk : CoTaskPtr} {kept : Bool} (hpc : s.clients c = .eraseWaiting tk kept) :
      Effect s a { s.setClient c (.pushAwoken tk kept) with
        ex := { s.ex with waitingQueue := s.ex.waitingQueue.erase tk } }
  | wake {c : ℕ} {pc : ClientPc} {tk : CoTaskPtr} (ha : a = .client c)
      (h : Woken (s.clients c) pc tk) :
      Effect s a { s.setClient c pc with
        ex := { s.ex with awokenQueue := s.ex.awokenQueue ++ [tk] } }
  | popWaiting {c : ℕ} {rest : List CoTaskPtr} (hpc : s.clients c = .popWaiting) :
      Effect s a { s.setClient c .testWaiting with ex := { s.ex with waitingQueue := rest } }
  | giveUp {kept block : List CoTaskPtr} (hq : s.ex.runnableQueue = kept ++ block) :
      Effect s a { s with ex := { s.ex with runnableQueue := kept } }
  | stop : Effect s a { s with ex := { s.ex with isStopping := true } }
  | isBlocking {v : ℕ} (ha : a = .isBlocking v) (hv : s.evaluations v = none) :
      Effect s a (s.setEvaluation v { returnedBefore := s.returned })
  | readClock {v : ℕ} {ev : Evaluation} (ha : a = .readClock v) (hv : s.evaluations v = some ev)
      (hclock : ev.clock = none) :
      Effect s a
        (s.setEvaluation v ({ ev with clock := some s.nowUs }.compareElapsed s.nowUs))
  | readTick {v : ℕ} {ev : Evaluation} (ha : a = .readTick v) (hv : s.evaluations v = some ev)
      (htick : ev.tick = none) :
      Effect s a (s.setEvaluation v
        ({ ev with tick := some s.ex.tick, stamps := s.stamps }.compareElapsed s.nowUs))
  | readSwitchCnt {v : ℕ} {ev : Evaluation} (ha : a = .readSwitchCnt v)
      (hv : s.evaluations v = some ev) (hel : ev.elapsed = true) (hcnt : ev.switchCnt = none) :
      Effect s a
        (s.setEvaluation v ({ ev with switchCnt := some s.ex.switchCnt }.compareCounts s.nowUs))
  | readSwitchedCnt {v : ℕ} {ev : Evaluation} (ha : a = .readSwitchedCnt v)
      (hv : s.evaluations v = some ev) (hel : ev.elapsed = true) (hcnt : ev.switchedCnt = none) :
      Effect s a
        (s.setEvaluation v ({ ev with switchedCnt := some s.ex.switchedCnt }.compareCounts s.nowUs))
  | elapse {us : ℕ} (ha : a = .elapse us) : Effect s a { s with nowUs := s.nowUs + us }
  | fault (f : Fault) : Effect s a (s.fail f)

variable {s s' : LoopState} {a : LoopAct} {c v : ℕ}

lemma assignRunnableTask_assigned {ex ex' : CoExecutor} {fromAwoken last : Bool}
    (h : ex.assignRunnableTask fromAwoken = some (ex', last)) : Assigned ex ex' := by
  unfold CoExecutor.assignRunnableTask at h
  cases fromAwoken with
  | true =>
    cases hq : ex.awokenQueue with
    | nil => simp [hq, ThreadSafeDeque.front] at h
    | cons tk rest =>
      simp only [hq, ThreadSafeDeque.front_cons, ThreadSafeDeque.popFront_cons] at h
      obtain ⟨rfl, -⟩ : _ = ex' ∧ _ := by simpa using h
      exact .awoken hq
  | false =>
    cases hq : ex.runnableQueue with
    | nil => simp [hq, ThreadSafeDeque.front] at h
    | cons tk rest =>
      simp only [hq, ThreadSafeDeque.front_cons, ThreadSafeDeque.popFront_cons] at h
      obtain ⟨rfl, -⟩ : _ = ex' ∧ _ := by simpa using h
      exact .runnable hq

lemma readOperand_eq_some {ready : Evaluation → Bool} {read : Evaluation → Evaluation}
    (h : s.readOperand v ready read = some s') :
    ∃ ev, s.evaluations v = some ev ∧ ready ev = true ∧ s' = s.setEvaluation v (read ev) := by
  unfold readOperand at h
  split at h
  · cases h
  next ev hv =>
    obtain ⟨hready, h⟩ := Option.ite_none_right_eq_some.mp h
    exact ⟨ev, hv, hready, (Option.some.inj h).symm⟩

lemma resumeTask_effect (hpc : s.pc = .resume) : Effect s a s.resumeTask := by
  unfold resumeTask
  dsimp only
  split
  · exact .fault _
  · exact .resumeOver hpc
  · exact .resume hpc

lemma settle_effect (ha : ∃ nowMs, a = .thread nowMs) (hpc : s.pc = .settle) :
    Effect s a s.settle := by
  unfold settle
  dsimp only
  split
  · exact .finished hpc
  next hst =>
    split
    next ex hex => exact .thrown ha hpc hst hex
    · exact .finished hpc
  · exact .held hpc

/-- A predicate that is false has found nothing to run. -/
lemma predicate_eq_false {nowMs : ℕ} (h : ¬s.ex.predicate nowMs = true) :
    s.ex.runnableQueue = [] ∧ s.ex.awokenQueue = [] := by
  simp only [CoExecutor.predicate, Bool.or_eq_true, not_or, Bool.not_eq_true, Bool.not_eq_false',
    List.isEmpty_iff] at h
  exact ⟨h.1.1.1, h.2⟩

lemma threadStep_effect {nowMs : ℕ} (h : s.threadStep nowMs = some s') :
    Effect s (.thread nowMs) s' := by
  unfold threadStep at h
  cases hpc : s.pc with
  | outside | inside | holding => simp [hpc] at h
  | test =>
    simp only [hpc, Option.some.injEq] at h
    refine h ▸ .threadMove (hpc ▸ ?_)
    split
    next hst => exact .exit hst
    next hst => exact .go (by simpa using hst)
  | choose =>
    simp only [hpc] at h
    obtain ⟨-, h⟩ := Option.ite_none_right_eq_some.mp h
    cases hq : s.ex.chooseQueue s.last with
    | none =>
      simp only [hq, Option.some.injEq] at h
      obtain ⟨hrun, hawoken⟩ := CoExecutor.chooseQueue_eq_none_iff.mp hq
      exact h ▸ .threadMove (hpc ▸ .idle hrun hawoken)
    | some fromAwoken =>
      simp only [hq, Option.some.injEq] at h
      exact h ▸ .threadMove (hpc ▸ .picked fromAwoken)
  | assign fromAwoken =>
    simp only [hpc] at h
    obtain ⟨-, h⟩ := Option.ite_none_right_eq_some.mp h
    cases hassign : s.ex.assignRunnableTask fromAwoken with
    | none =>
      simp only [hassign, Option.some.injEq] at h
      exact h ▸ .fault _
    | some r =>
      obtain ⟨ex, last⟩ := r
      simp only [hassign] at h
      split at h
      · exact Option.some.inj h ▸ .fault _
      · exact Option.some.inj h ▸ .assign hpc (assignRunnableTask_assigned hassign)
  | count =>
    simp only [hpc, Option.some.injEq] at h
    exact h ▸ .count ⟨nowMs, rfl⟩ hpc
  | stamp =>
    simp only [hpc, Option.some.injEq] at h
    exact h ▸ .stamp ⟨nowMs, rfl⟩ hpc
  | resume =>
    simp only [hpc, Option.some.injEq] at h
    exact h ▸ resumeTask_effect hpc
  | counted =>
    simp only [hpc, Option.some.injEq] at h
    exact h ▸ .counted hpc
  | settle =>
    simp only [hpc, Option.some.injEq] at h
    exact h ▸ settle_effect ⟨nowMs, rfl⟩ hpc
  | gcTest =>
    simp only [hpc] at h
    split at h
    next => exact Option.some.inj h ▸ .gc nowMs hpc
    next hlt => exact Option.some.inj h ▸ .threadMove (hpc ▸ .keep (Nat.lt_of_not_le hlt))
  | setWaiting =>
    simp only [hpc, Option.some.injEq] at h
    exact h ▸ .setWaiting hpc
  | evaluate timedOut =>
    simp only [hpc] at h
    obtain ⟨-, h⟩ := Option.ite_none_right_eq_some.mp h
    split at h
    next hpred => exact Option.some.inj h ▸ .threadMove (hpc ▸ .found hpred)
    next hpred =>
      cases timedOut with
      | true => exact Option.some.inj h ▸ .timedOut hpc
      | false =>
        obtain ⟨hrun, hawoken⟩ := predicate_eq_false hpred
        exact Option.some.inj h ▸ .threadMove (hpc ▸ .missed hrun hawoken)
  | block =>
    simp only [hpc, Option.some.injEq] at h
    exact h ▸ .threadMove (hpc ▸ .sleep)
  | blocked notified =>
    simp only [hpc] at h
    obtain ⟨-, h⟩ := Option.ite_none_right_eq_some.mp h
    exact Option.some.inj h ▸ .threadMove (hpc ▸ .woken notified false)
  | leave =>
    simp only [hpc, Option.some.injEq] at h
    exact h ▸ .leave hpc
  | idleClean =>
    simp only [hpc, Option.some.injEq] at h
    subst h
    unfold CoExecutor.idleClean
    split
    · exact .idleClean hpc (.inr rfl)
    · exact .idleClean hpc (.inl rfl)

lemma clientStep_effect (h : s.clientStep c = some s') : Effect s (.client c) s' := by
  unfold clientStep at h
  cases hpc : s.clients c with
  | idle => simp [hpc] at h
  | push tk =>
    simp only [hpc] at h
    obtain ⟨hfree, h⟩ := Option.ite_none_right_eq_some.mp h
    exact Option.some.inj h ▸ .push hpc hfree
  | pushAll tks =>
    simp only [hpc] at h
    obtain ⟨hfree, h⟩ := Option.ite_none_right_eq_some.mp h
    obtain rfl := Option.some.inj h
    rw [CoExecutor.foldl_pushBack]
    exact .pushAll hpc hfree
  | readWaiting locked =>
    simp only [hpc, Option.some.injEq] at h
    refine h ▸ .clientMove (hpc ▸ ?_)
    split
    next hwait => exact .waits hwait
    next hwait => exact .awake (by simpa using hwait)
  | notify locked =>
    simp only [hpc, Option.some.injEq] at h
    exact h ▸ .notify rfl hpc
  | unlock =>
    simp only [hpc, Option.some.injEq] at h
    exact h ▸ .unlock hpc
  | eraseWaiting tk kept =>
    simp only [hpc] at h
    split at h
    · exact Option.some.inj h ▸ .erase hpc
    · exact Option.some.inj h ▸ .clientMove (hpc ▸ .absent)
  | pushAwoken tk kept =>
    simp only [hpc, Option.some.injEq] at h
    exact h ▸ .wake rfl (hpc ▸ .entry)
  | testWaiting =>
    simp only [hpc, Option.some.injEq] at h
    refine h ▸ .clientMove (hpc ▸ ?_)
    split
    · exact .allAwoken
    · exact .more
  | frontWaiting =>
    simp only [hpc] at h
    split at h
    · exact Option.some.inj h ▸ .fault _
    next tk _ => exact Option.some.inj h ▸ .clientMove (hpc ▸ .front tk)
  | pushFront tk =>
    simp only [hpc, Option.some.injEq] at h
    exact h ▸ .wake rfl (hpc ▸ .front)
  | popWaiting =>
    simp only [hpc] at h
    split at h
    · exact Option.some.inj h ▸ .fault _
    · exact Option.some.inj h ▸ .popWaiting hpc

lemma act_of_step (h : s.step a = some s') : s.act a = some s' :=
  (Option.ite_none_left_eq_some.mp h).2

/-- **Every step is an effect.** -/
theorem step_effect (h : s.step a = some s') : Effect s a s' := by
  have h := act_of_step h
  cases a with
  | process timeoutMs =>
    obtain ⟨hpc, h⟩ := Option.ite_none_right_eq_some.mp h
    exact Option.some.inj h ▸ .enter timeoutMs hpc
  | thread nowMs => exact threadStep_effect h
  | spurious =>
    simp only [act] at h
    split at h <;> try cases h
    next notified hpc => exact .threadMove (hpc ▸ .woken notified false)
  | timeout =>
    simp only [act] at h
    split at h <;> try cases h
    next notified hpc =>
      obtain ⟨-, h⟩ := Option.ite_none_right_eq_some.mp h
      exact Option.some.inj h ▸ .threadMove (hpc ▸ .woken notified true)
  | holdPush =>
    obtain ⟨hpc, h⟩ := Option.ite_none_right_eq_some.mp h
    exact Option.some.inj h ▸ .holdPush hpc
  | holdSwitch =>
    obtain ⟨hpc, h⟩ := Option.ite_none_right_eq_some.mp h
    exact Option.some.inj h ▸ .switchOut (.inr hpc)
  | yield | finish | throw =>
    obtain ⟨hpc, h⟩ := Option.ite_none_right_eq_some.mp h
    exact Option.some.inj h ▸ .switchOut (.inl hpc)
  | addTask c tk =>
    obtain ⟨hpc, h⟩ := Option.ite_none_right_eq_some.mp h
    by_cases hnull : tk = nullptr
    · rw [if_pos hnull] at h
      have hmove : ClientMove s (s.clients c) .idle := by rw [hpc]; exact .addNull
      exact Option.some.inj h ▸ .clientMove hmove
    · rw [if_neg hnull] at h
      exact Option.some.inj h ▸ .clientMove (hpc ▸ .addTask hnull)
  | addTasks c tks =>
    obtain ⟨hpc, h⟩ := Option.ite_none_right_eq_some.mp h
    exact Option.some.inj h ▸ .clientMove (hpc ▸ .addTasks tks)
  | wakeupFromEntry c tk kept =>
    obtain ⟨hpc, h⟩ := Option.ite_none_right_eq_some.mp h
    exact Option.some.inj h ▸ .clientMove (hpc ▸ .wakeup tk kept)
  | wakeupAllTasks c =>
    obtain ⟨hpc, h⟩ := Option.ite_none_right_eq_some.mp h
    exact Option.some.inj h ▸ .clientMove (hpc ▸ .wakeupAll)
  | client c => exact clientStep_effect h
  | giveUpTasks n =>
    obtain ⟨-, h⟩ := Option.ite_none_right_eq_some.mp h
    obtain ⟨kept, block, hq, heq, -⟩ := s.ex.giveUpTasks_split [] n
    rw [heq] at h
    exact Option.some.inj h ▸ .giveUp hq
  | stop => exact Option.some.inj h ▸ .stop
  | isBlocking v =>
    obtain ⟨hv, h⟩ := Option.ite_none_right_eq_some.mp h
    exact Option.some.inj h ▸ .isBlocking rfl hv
  | readClock v =>
    obtain ⟨ev, hv, hready, rfl⟩ := readOperand_eq_some h
    exact .readClock rfl hv (by simpa using hready)
  | readTick v =>
    obtain ⟨ev, hv, hready, rfl⟩ := readOperand_eq_some h
    exact .readTick rfl hv (by simpa using hready)
  | readSwitchCnt v =>
    obtain ⟨ev, hv, hready, rfl⟩ := readOperand_eq_some h
    simp only [Bool.and_eq_true, Option.isNone_iff_eq_none] at hready
    exact .readSwitchCnt rfl hv hready.1 hready.2
  | readSwitchedCnt v =>
    obtain ⟨ev, hv, hready, rfl⟩ := readOperand_eq_some h
    simp only [Bool.and_eq_true, Option.isNone_iff_eq_none] at hready
    exact .readSwitchedCnt rfl hv hready.1 hready.2
  | elapse us => exact Option.some.inj h ▸ .elapse rfl

/-- What holds initially and is preserved by every effect, holds of every run. -/
theorem effect_invariant {G : LoopState → LoopAct → Prop} {I : LoopState → Prop}
    (hinit : ∀ (id : ℤ) (nowUs : ℕ), I { ex := { id := id }, nowUs := nowUs })
    (heff : ∀ s a s', I s → Effect s a s' → I s') (h : loopSystem.ReachableUnder G s) : I s := by
  refine h.invariant ?_ fun s a s' _ hs _ hstep => heff s a s' hs (step_effect hstep)
  rintro s ⟨id, nowUs, rfl⟩
  exact hinit id nowUs

/-! ## The steps of one client or evaluation -/

lemma threadStep_clients {nowMs : ℕ} (h : s.threadStep nowMs = some s') :
    s'.clients = s.clients := by
  unfold threadStep resumeTask settle at h
  dsimp only at h
  repeat' split at h
  all_goals cases h <;> rfl

lemma clientStep_clients (h : s.clientStep c = some s') :
    ∃ pc, s'.clients = Function.update s.clients c pc := by
  unfold clientStep at h
  repeat' split at h
  all_goals cases h <;> first
    | exact ⟨_, rfl⟩
    | exact ⟨_, (Function.update_eq_self c s.clients).symm⟩

end LoopState

/-- The client whose step it is. -/
def LoopAct.client? : LoopAct → Option ℕ
  | .addTask c _ => some c
  | .addTasks c _ => some c
  | .wakeupFromEntry c _ _ => some c
  | .wakeupAllTasks c => some c
  | .client c => some c
  | _ => none

/-- The evaluation whose step it is. -/
def LoopAct.evaluation? : LoopAct → Option ℕ
  | .isBlocking v => some v
  | .readClock v => some v
  | .readTick v => some v
  | .readSwitchCnt v => some v
  | .readSwitchedCnt v => some v
  | _ => none

namespace LoopState

variable {s s' : LoopState} {a : LoopAct} {c v : ℕ}

/-- A step changes no evaluation but its own. -/
lemma Effect.evaluations_of_ne (h : Effect s a s') (hne : a.evaluation? ≠ some v) :
    s'.evaluations v = s.evaluations v := by
  have hset : ∀ {v' ev}, a.evaluation? = some v' →
      (s.setEvaluation v' ev).evaluations v = s.evaluations v := by
    intro v' ev ha
    refine Function.update_of_ne (fun heq => hne ?_) _ _
    rw [ha, heq]
  cases h with
  | isBlocking ha => exact hset (by rw [ha]; rfl)
  | readClock ha => exact hset (by rw [ha]; rfl)
  | readTick ha => exact hset (by rw [ha]; rfl)
  | readSwitchCnt ha => exact hset (by rw [ha]; rfl)
  | readSwitchedCnt ha => exact hset (by rw [ha]; rfl)
  | _ => rfl

/-- A step moves no client but its own. -/
lemma step_clients_of_ne (h : s.step a = some s') (hne : a.client? ≠ some c) :
    s'.clients c = s.clients c := by
  have h := act_of_step h
  have hbegin : ∀ c' pc, some c' ≠ some c → s.begin c' pc = some s' →
      s'.clients c = s.clients c := by
    intro c' pc hne h
    obtain ⟨-, h⟩ := Option.ite_none_right_eq_some.mp h
    obtain rfl := Option.some.inj h
    exact Function.update_of_ne (by simpa using Ne.symm hne) _ _
  cases a with
  | addTask c' tk => exact hbegin c' _ hne h
  | addTasks c' tks => exact hbegin c' _ hne h
  | wakeupFromEntry c' tk kept => exact hbegin c' _ hne h
  | wakeupAllTasks c' => exact hbegin c' _ hne h
  | client c' =>
    obtain ⟨pc, hpc⟩ := clientStep_clients h
    rw [hpc]
    exact Function.update_of_ne (by simpa [LoopAct.client?] using Ne.symm hne) _ _
  | thread nowMs => rw [threadStep_clients h]
  | readClock v | readTick v | readSwitchCnt v | readSwitchedCnt v =>
    obtain ⟨ev, -, -, rfl⟩ := readOperand_eq_some h
    rfl
  | _ =>
    unfold act at h
    dsimp only at h
    repeat' split at h
    all_goals cases h <;> rfl

/-- A client that takes no step in a run is at its end where it was. -/
lemma run_clients_of_ne {as : List LoopAct}
    (h : loopSystem.runUnder (fun _ _ => True) s as = some s')
    (hne : ∀ a ∈ as, a.client? ≠ some c) : s'.clients c = s.clients c :=
  runUnder_view (fun s => s.clients c)
    (fun a ha _ _ hstep => step_clients_of_ne hstep (hne a ha)) h

end LoopState

end CoroutineCpp
