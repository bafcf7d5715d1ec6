import CoroutineCpp.Properties.ProcessMoves

/-!
# Collecting garbage while idle

`Predicate` ends a wait when garbage is due; the wait functions decide with a second reading of the
clock whether to set `m_clean_right_now`, and `Process` cleans if that flag is set and the finished
queue is not empty.  On a clock that does not go back the three tests agree (`DueForGc.step`), so an
idle iteration that was ended by garbage removes it.  After that the executor rests: nothing can run
and nothing can finish, and `Predicate` stays false (`Resting.step`).
-/

namespace CoroutineCpp

open Framework TransitionSystem

/-- Nobody but the thread moves the thread. -/
def LoopPc.own : LoopPc → Bool
  | .outside => false
  | .inside => false
  | .holding => false
  | .blocked _ => false
  | _ => true

/-- The next step of the caller puts a task onto the runnable or the awoken queue. -/
def ClientPc.supplies : ClientPc → Bool
  | .push _ => true
  | .pushAll tks => !tks.isEmpty
  | .pushAwoken .. => true
  | .pushFront _ => true
  | _ => false

/-- What a step of the thread reads from the millisecond clock. -/
def LoopAct.reading? : LoopAct → Option ℕ
  | .thread nowMs => some nowMs
  | _ => none

/-- The caller whose next step it is. -/
def LoopAct.clientMove? : LoopAct → Option ℕ
  | .client c => some c
  | _ => none

/-- The thread is between two picks that found nothing; in a stopped executor it is on its way
out. -/
def LoopPc.resting (isStopping : Bool) : LoopPc → Bool
  | .outside => true
  | .test => true
  | .leave => true
  | .idleClean => true
  | .choose => !isStopping
  | .setWaiting => !isStopping
  | .evaluate _ => !isStopping
  | .block => !isStopping
  | .blocked _ => !isStopping
  | _ => false

namespace LoopState

variable {s s' : LoopState} {a : LoopAct} {nowMs : ℕ}

/-- `GetCurrentMs()` -/
def currentMs (s : LoopState) : ℕ := s.nowUs / 1000

/-- Both clocks are one. -/
def ReadsClock (s : LoopState) (a : LoopAct) : Prop := ∀ nowMs ∈ a.reading?, nowMs = s.currentMs

/-- No task is added or woken, and the executor is not told to stop. -/
def LeavesIdle (s : LoopState) (a : LoopAct) : Prop :=
  a ≠ .stop ∧ ∀ c ∈ a.clientMove?, (s.clients c).supplies = false

/-- The thread is in the idle branch of `Process`, behind the wait. -/
def BehindWait (s : LoopState) : Prop := s.pc = .leave ∨ s.pc = .idleClean

instance (s : LoopState) (a : LoopAct) : Decidable (s.ReadsClock a) :=
  inferInstanceAs (Decidable (∀ nowMs ∈ a.reading?, nowMs = s.currentMs))

instance (s : LoopState) (a : LoopAct) : Decidable (s.LeavesIdle a) :=
  inferInstanceAs (Decidable (_ ∧ _))

instance (s : LoopState) : Decidable s.BehindWait := inferInstanceAs (Decidable (_ ∨ _))

/-! ## The clock -/

lemma eq_thread_of_reading (h : a.reading? = some nowMs) : a = .thread nowMs := by
  cases a <;> cases h
  rfl

/-- The steps of the others leave the garbage alone, and the thread where it moves by itself. -/
structure Aside (s s' : LoopState) : Prop where
  finishedQueue : s'.ex.finishedQueue = s.ex.finishedQueue
  lastGcTick : s'.ex.lastGcTick = s.ex.lastGcTick
  cleanRightNow : s'.ex.cleanRightNow = s.ex.cleanRightNow
  pc : s.pc.own = true → s'.pc = s.pc

lemma notifyAll_of_own {pc : LoopPc} (h : pc.own = true) : notifyAll pc = pc := by
  cases pc <;> first | rfl | cases h

lemma clientStep_aside {c : ℕ} (h : s.clientStep c = some s') : Aside s s' := by
  unfold clientStep at h
  repeat' split at h
  all_goals first
    | cases h; exact ⟨rfl, rfl, rfl, fun _ => rfl⟩
    | cases h; exact ⟨rfl, rfl, rfl, notifyAll_of_own⟩
    | cases h

lemma step_aside (h : s.step a = some s') (ha : a.reading? = none) : Aside s s' := by
  have h := act_of_step h
  have hbegin : ∀ c pc, s.begin c pc = some s' → Aside s s' := by
    intro c pc h
    obtain ⟨-, h⟩ := Option.ite_none_right_eq_some.mp h
    obtain rfl := Option.some.inj h
    exact ⟨rfl, rfl, rfl, fun _ => rfl⟩
  have hmoved : ∀ {pc : LoopPc}, s.pc = pc → pc.own = false → s.pc.own = true → s'.pc = s.pc := by
    intro pc hpc hown htrue
    rw [hpc, hown] at htrue
    cases htrue
  cases a with
  | thread nowMs => cases ha
  | process timeoutMs | holdPush | holdSwitch | yield | finish | throw =>
    obtain ⟨hpc, h⟩ := Option.ite_none_right_eq_some.mp h
    obtain rfl := Option.some.inj h
    exact ⟨rfl, rfl, rfl, hmoved hpc rfl⟩
  | spurious =>
    simp only [act] at h
    split at h <;> try cases h
    next hpc => exact ⟨rfl, rfl, rfl, hmoved hpc rfl⟩
  | timeout =>
    simp only [act] at h
    split at h <;> try cases h
    next hpc =>
      obtain ⟨-, h⟩ := Option.ite_none_right_eq_some.mp h
      obtain rfl := Option.some.inj h
      exact ⟨rfl, rfl, rfl, hmoved hpc rfl⟩
  | addTask c tk => exact hbegin c _ h
  | addTasks c tks => exact hbegin c _ h
  | wakeupFromEntry c tk kept => exact hbegin c _ h
  | wakeupAllTasks c => exact hbegin c _ h
  | client c => exact clientStep_aside h
  | giveUpTasks n =>
    obtain ⟨-, h⟩ := Option.ite_none_right_eq_some.mp h
    obtain ⟨kept, block, -, heq, -⟩ := s.ex.giveUpTasks_split [] n
    rw [heq] at h
    obtain rfl := Option.some.inj h
    exact ⟨rfl, rfl, rfl, fun _ => rfl⟩
  | readClock v | readTick v | readSwitchCnt v | readSwitchedCnt v =>
    obtain ⟨ev, -, -, rfl⟩ := readOperand_eq_some h
    exact ⟨rfl, rfl, rfl, fun _ => rfl⟩
  | isBlocking v =>
    obtain ⟨-, h⟩ := Option.ite_none_right_eq_some.mp h
    obtain rfl := Option.some.inj h
    exact ⟨rfl, rfl, rfl, fun _ => rfl⟩
  | stop | elapse =>
    obtain rfl := Option.some.inj h
    exact ⟨rfl, rfl, rfl, fun _ => rfl⟩

lemma step_nowUs (h : s.step a = some s') : s.nowUs ≤ s'.nowUs := by
  cases step_effect h with
  | elapse => exact Nat.le_add_right ..
  | _ => exact Nat.le_refl _

lemma step_currentMs (h : s.step a = some s') : s.currentMs ≤ s'.currentMs :=
  Nat.div_le_div_right (step_nowUs h)

/-- Only `Clean` stores a time in `m_last_gc_tick`: that of its reading of the clock. -/
lemma step_lastGcTick (h : s.step a = some s') :
    s'.ex.lastGcTick = s.ex.lastGcTick ∨ a.reading? = some s'.ex.lastGcTick := by
  cases hread : a.reading? with
  | none => exact .inl (step_aside h hread).lastGcTick
  | some nowMs =>
    obtain rfl := eq_thread_of_reading hread
    have h := act_of_step h
    by_cases hgc : s.pc = .gcTest
    · simp only [act, threadStep, hgc] at h
      split at h <;> cases h
      · exact .inr hread
      · exact .inl rfl
    · by_cases hidle : s.pc = .idleClean
      · simp only [act, threadStep, hidle, CoExecutor.idleClean] at h
        split at h <;> cases h
        · exact .inr hread
        · exact .inl rfl
      · cases threadStep_effect h with
        | gc _ hpc => exact absurd hpc hgc
        | idleClean hpc => exact absurd hpc hidle
        | assign _ hassign => cases hassign <;> exact .inl rfl
        | _ => exact .inl rfl

/-- The last collection was not in the future. -/
lemma reachable_lastGcTick_le (h : loopSystem.ReachableUnder ReadsClock s) :
    s.ex.lastGcTick ≤ s.currentMs := by
  refine h.invariant (I := fun s => s.ex.lastGcTick ≤ s.currentMs) ?_ ?_
  · rintro s ⟨id, nowUs, rfl⟩
    exact Nat.zero_le _
  · intro s a s' _ hs hread hstep
    have hclock := step_currentMs hstep
    rcases step_lastGcTick hstep with heq | hreading
    · rw [heq]
      exact Nat.le_trans hs hclock
    · rw [hread _ hreading]
      exact hclock

/-! ## The iteration that was ended by garbage -/

/-- Garbage is there, and `GC_INTERVAL_MS` have passed since the last collection. -/
structure GcDue (s : LoopState) : Prop where
  finishedQueue : s.ex.finishedQueue ≠ []
  elapsed : s.ex.lastGcTick + gcIntervalMs < s.currentMs

/-- Garbage has just been removed. -/
structure Cleaned (s : LoopState) : Prop where
  finishedQueue : s.ex.finishedQueue = []
  lastGcTick : s.ex.lastGcTick = s.currentMs

/-- The rest of an idle iteration whose wait was ended by garbage: what is due stays due, `leave`
sets the flag, `idleClean` cleans. -/
inductive DueForGc (s : LoopState) : Prop
  | leave (hpc : s.pc = .leave) (hdue : s.GcDue)
  | idleClean (hpc : s.pc = .idleClean) (hdue : s.GcDue) (hflag : s.ex.cleanRightNow = true)
  | done (hpc : s.pc = .test) (hclean : s.Cleaned)

lemma GcDue.aside (hs : s.GcDue) (h : Aside s s') (hclock : s.currentMs ≤ s'.currentMs) :
    s'.GcDue :=
  ⟨h.finishedQueue ▸ hs.finishedQueue, h.lastGcTick ▸ Nat.lt_of_lt_of_le hs.elapsed hclock⟩

lemma GcDue.wrapSub_lt (hs : s.GcDue) : gcIntervalMs < wrapSub s.currentMs s.ex.lastGcTick := by
  have helapsed := hs.elapsed
  rw [wrapSub_of_le (by omega)]
  omega

/-- A wait that ends with `Predicate` true although nothing is ready and the executor is not to stop
was ended by garbage. -/
lemma gcDue_of_predicate (hle : s.ex.lastGcTick ≤ s.currentMs) (hrun : s.ex.runnableQueue = [])
    (hawoken : s.ex.awokenQueue = []) (hstop : s.ex.isStopping = false)
    (hpred : s.ex.predicate s.currentMs = true) : s.GcDue := by
  simp only [CoExecutor.predicate, hrun, hawoken, hstop, wrapSub_of_le hle, List.isEmpty_nil,
    Bool.not_true, Bool.not_false, Bool.true_and, Bool.false_or, Bool.or_false, Bool.and_eq_true,
    Bool.not_eq_true', List.isEmpty_eq_false_iff, decide_eq_true_eq] at hpred
  obtain ⟨⟨-, hfin⟩, helapsed⟩ := hpred
  exact ⟨hfin, by omega⟩

/-- What was due for `Predicate` is due for the wait functions, and for `Process`. -/
lemma DueForGc.step (hs : s.DueForGc) (hbehind : s.BehindWait) (hread : s.ReadsClock a)
    (h : s.step a = some s') : s'.DueForGc := by
  have hclock := step_currentMs h
  cases hreading : a.reading? with
  | none =>
    have haside := step_aside h hreading
    cases hs with
    | leave hpc hdue =>
      exact .leave ((haside.pc (by rw [hpc]; rfl)).trans hpc) (hdue.aside haside hclock)
    | idleClean hpc hdue hflag =>
      exact .idleClean ((haside.pc (by rw [hpc]; rfl)).trans hpc) (hdue.aside haside hclock)
        (haside.cleanRightNow.trans hflag)
    | done hpc => simp [BehindWait, hpc] at hbehind
  | some nowMs =>
    obtain rfl := eq_thread_of_reading hreading
    obtain rfl : nowMs = s.currentMs := hread nowMs rfl
    have h := act_of_step h
    cases hs with
    | leave hpc hdue =>
      simp only [act, threadStep, hpc, CoExecutor.leaveWait, if_pos hdue.wrapSub_lt,
        Option.some.injEq] at h
      subst h
      exact .idleClean rfl ⟨hdue.finishedQueue, hdue.elapsed⟩ rfl
    | idleClean hpc hdue hflag =>
      have hfin : s.ex.finishedQueue.isEmpty = false := by simpa using hdue.finishedQueue
      simp only [act, threadStep, hpc, CoExecutor.idleClean, hflag, hfin, Bool.not_false,
        Bool.and_self, if_true, Option.some.injEq] at h
      subst h
      exact .done rfl ⟨rfl, rfl⟩
    | done hpc => simp [BehindWait, hpc] at hbehind

/-- The wait ends where `Predicate` is true. -/
lemma step_found {timedOut : Bool} (hpc : s.pc = .evaluate timedOut)
    (hpred : s.ex.predicate nowMs = true) (h : s.step (.thread nowMs) = some s') :
    s' = { s with pc := .leave } := by
  have h := act_of_step h
  simp only [act, threadStep, hpc, hpred, if_true] at h
  obtain ⟨-, h⟩ := Option.ite_none_right_eq_some.mp h
  exact (Option.some.inj h).symm

/-- Nothing keeps the thread from finishing the iteration. -/
lemma isSome_step_of_behindWait (hbehind : s.BehindWait) (hfault : s.fault = none) :
    (s.step (.thread nowMs)).isSome = true := by
  rcases hbehind with hpc | hpc <;> simp [step, act, threadStep, hfault, hpc]

lemma DueForGc.step_idleClean (hs : s.DueForGc) (hpc : s.pc = .idleClean)
    (h : s.step (.thread nowMs) = some s') :
    s'.ex = (CoExecutor.clean nowMs { s.ex with cleanRightNow := false }).1 := by
  have h := act_of_step h
  cases hs with
  | leave hpc' => simp [hpc] at hpc'
  | done hpc' => simp [hpc] at hpc'
  | idleClean _ hdue hflag =>
    have hfin : s.ex.finishedQueue.isEmpty = false := by simpa using hdue.finishedQueue
    simp only [act, threadStep, hpc, CoExecutor.idleClean, hflag, hfin, Bool.not_false,
      Bool.and_self, if_true, Option.some.injEq] at h
    exact h ▸ rfl

lemma DueForGc.cleaned (hs : s.DueForGc) (hpc : s.pc = .test) : s.Cleaned := by
  cases hs with
  | leave hpc' => simp [hpc] at hpc'
  | idleClean hpc' => simp [hpc] at hpc'
  | done _ hclean => exact hclean

/-! ## After the collection -/

/-- Nothing is ready, and nothing runs. -/
structure Resting (s : LoopState) : Prop where
  runnableQueue : s.ex.runnableQueue = []
  awokenQueue : s.ex.awokenQueue = []
  pc : s.pc.resting s.ex.isStopping = true

lemma Resting.predicate (hs : s.Resting) (hfin : s.ex.finishedQueue = [])
    (hstop : s.ex.isStopping = false) (nowMs : ℕ) : s.ex.predicate nowMs = false := by
  simp [CoExecutor.predicate, hs.runnableQueue, hs.awokenQueue, hfin, hstop]

lemma Resting.not_stopping (hs : s.Resting) {timedOut : Bool} (hpc : s.pc = .evaluate timedOut) :
    s.ex.isStopping = false := by
  have hresting := hs.pc
  rw [hpc] at hresting
  simpa [LoopPc.resting] using hresting

/-- The rest is no matter, but for where the thread stands. -/
lemma Resting.of_ex (hs : s.Resting) (hrun : s'.ex.runnableQueue = s.ex.runnableQueue)
    (hawoken : s'.ex.awokenQueue = s.ex.awokenQueue)
    (hpc : s'.pc.resting s'.ex.isStopping = true) : s'.Resting :=
  ⟨hrun.trans hs.runnableQueue, hawoken.trans hs.awokenQueue, hpc⟩

lemma resting_notifyAll {isStopping : Bool} {pc : LoopPc} (h : pc.resting isStopping = true) :
    (notifyAll pc).resting isStopping = true := by
  cases pc <;> exact h

lemma Resting.move {pc : LoopPc} (hs : s.Resting) (hpc : pc.resting s.ex.isStopping = true) :
    Resting { s with pc := pc } :=
  hs.of_ex rfl rfl hpc

/-- The thread finds nothing to run. -/
lemma Resting.thread (hs : s.Resting) (h : s.threadStep nowMs = some s') : s'.Resting := by
  have hchoose : s.ex.chooseQueue s.last = none :=
    CoExecutor.chooseQueue_eq_none_iff.mpr ⟨hs.runnableQueue, hs.awokenQueue⟩
  have hresting := hs.pc
  cases hpc : s.pc with
  | outside => simp [threadStep, hpc] at h
  | test =>
    simp only [threadStep, hpc, Option.some.injEq] at h
    refine h ▸ hs.move ?_
    cases s.ex.isStopping <;> rfl
  | choose =>
    simp only [threadStep, hpc, hchoose] at h
    obtain ⟨-, h⟩ := Option.ite_none_right_eq_some.mp h
    rw [hpc] at hresting
    exact Option.some.inj h ▸ hs.move hresting
  | setWaiting =>
    simp only [threadStep, hpc, Option.some.injEq] at h
    rw [hpc] at hresting
    exact h ▸ hs.of_ex rfl rfl hresting
  | evaluate timedOut =>
    simp only [threadStep, hpc] at h
    obtain ⟨-, h⟩ := Option.ite_none_right_eq_some.mp h
    rw [hpc] at hresting
    split at h
    next => exact Option.some.inj h ▸ hs.move rfl
    next =>
      split at h
      next => exact Option.some.inj h ▸ hs.of_ex rfl rfl rfl
      next => exact Option.some.inj h ▸ hs.move hresting
  | block =>
    simp only [threadStep, hpc, Option.some.injEq] at h
    rw [hpc] at hresting
    exact h ▸ hs.move hresting
  | blocked notified =>
    simp only [threadStep, hpc] at h
    obtain ⟨-, h⟩ := Option.ite_none_right_eq_some.mp h
    rw [hpc] at hresting
    exact Option.some.inj h ▸ hs.move hresting
  | leave =>
    simp only [threadStep, hpc, Option.some.injEq] at h
    exact h ▸ hs.of_ex rfl rfl rfl
  | idleClean =>
    obtain ⟨hrun, -, hawoken, -⟩ := s.ex.idleClean_frame nowMs
    simp only [threadStep, hpc, Option.some.injEq] at h
    exact h ▸ hs.of_ex hrun hawoken rfl
  | _ => simp [hpc, LoopPc.resting] at hresting

/-- A caller that pushes nothing onto a ready queue. -/
lemma Resting.client {c : ℕ} (hs : s.Resting) (hc : (s.clients c).supplies = false)
    (h : s.clientStep c = some s') : s'.Resting := by
  unfold clientStep at h
  cases hpc : s.clients c with
  | push | pushAwoken | pushFront =>
    rw [hpc] at hc
    cases hc
  | pushAll tks =>
    -- a batch that is empty
    obtain rfl : tks = [] := by simpa [hpc, ClientPc.supplies] using hc
    simp only [hpc] at h
    obtain ⟨-, h⟩ := Option.ite_none_right_eq_some.mp h
    exact Option.some.inj h ▸ hs.of_ex rfl rfl hs.pc
  | notify locked =>
    simp only [hpc, Option.some.injEq] at h
    exact h ▸ hs.of_ex rfl rfl (resting_notifyAll hs.pc)
  | _ =>
    simp only [hpc] at h
    repeat' split at h
    all_goals cases h <;> exact hs.of_ex rfl rfl hs.pc

lemma Resting.step (hs : s.Resting) (hidle : s.LeavesIdle a) (h : s.step a = some s') :
    s'.Resting := by
  have h := act_of_step h
  have hresting := hs.pc
  have hbegin : ∀ c pc, s.begin c pc = some s' → s'.Resting := by
    intro c pc h
    obtain ⟨-, h⟩ := Option.ite_none_right_eq_some.mp h
    exact Option.some.inj h ▸ hs.of_ex rfl rfl hresting
  cases a with
  | thread nowMs => exact hs.thread h
  | process timeoutMs =>
    obtain ⟨-, h⟩ := Option.ite_none_right_eq_some.mp h
    exact Option.some.inj h ▸ hs.of_ex rfl rfl rfl
  | holdPush | holdSwitch | yield | finish | throw =>
    obtain ⟨hpc, -⟩ := Option.ite_none_right_eq_some.mp h
    rw [hpc] at hresting
    cases hresting
  | spurious =>
    simp only [act] at h
    split at h <;> try cases h
    next hpc =>
      rw [hpc] at hresting
      exact hs.move hresting
  | timeout =>
    simp only [act] at h
    split at h <;> try cases h
    next hpc =>
      obtain ⟨-, h⟩ := Option.ite_none_right_eq_some.mp h
      rw [hpc] at hresting
      exact Option.some.inj h ▸ hs.move hresting
  | addTask c tk => exact hbegin c _ h
  | addTasks c tks => exact hbegin c _ h
  | wakeupFromEntry c tk kept => exact hbegin c _ h
  | wakeupAllTasks c => exact hbegin c _ h
  | client c => exact hs.client (hidle.2 c rfl) h
  | giveUpTasks n =>
    obtain ⟨-, h⟩ := Option.ite_none_right_eq_some.mp h
    obtain ⟨kept, block, hsplit, heq, -⟩ := s.ex.giveUpTasks_split [] n
    rw [heq] at h
    have hkept : kept = [] := (List.append_eq_nil_iff.mp (hsplit.symm.trans hs.runnableQueue)).1
    exact Option.some.inj h ▸
      hs.of_ex (hkept.trans hs.runnableQueue.symm) rfl hresting
  | readClock v | readTick v | readSwitchCnt v | readSwitchedCnt v =>
    obtain ⟨ev, -, -, rfl⟩ := readOperand_eq_some h
    exact hs.of_ex rfl rfl hresting
  | isBlocking v =>
    obtain ⟨-, h⟩ := Option.ite_none_right_eq_some.mp h
    exact Option.some.inj h ▸ hs.of_ex rfl rfl hresting
  | stop => exact absurd rfl hidle.1
  | elapse => exact Option.some.inj h ▸ hs.of_ex rfl rfl hresting

/-- Nothing can finish. -/
lemma Resting.step_finishedQueue (hs : s.Resting) (h : s.step a = some s')
    (hfin : s.ex.finishedQueue = []) : s'.ex.finishedQueue = [] := by
  have hsettle : s.pc ≠ .settle := fun hpc => by
    have hresting := hs.pc
    rw [hpc] at hresting
    cases hresting
  cases step_effect h with
  | finished hpc => exact absurd hpc hsettle
  | thrown _ hpc => exact absurd hpc hsettle
  | gc => rfl
  | idleClean _ hfin' => exact hfin'.elim (·.trans hfin) id
  | assign _ hassign => cases hassign <;> exact hfin
  | _ => exact hfin

/-- **An idle loop does not spin on garbage.**  A wait that ends with `Predicate` true, although
nothing is ready and the executor is not to stop, was ended by garbage: the same iteration sets the
flag, cleans, and leaves the finished queue empty (`DueForGc`).  As long as nothing is added or
woken and the executor is not told to stop, `Predicate` is false from then on, and in every later
evaluation even where the time of a wait has run out and `m_is_stopping` is set. -/
theorem idle_iteration_cleans (h : loopSystem.ReachableUnder ReadsClock s) {timedOut : Bool}
    (hpc : s.pc = .evaluate timedOut) (hrun : s.ex.runnableQueue = [])
    (hawoken : s.ex.awokenQueue = []) (hstop : s.ex.isStopping = false)
    (hpred : s.ex.predicate s.currentMs = true) {s₁ : LoopState}
    (hstep : loopSystem.step s (.thread s.currentMs) = some s₁) :
    (∀ s₂, (loopSystem.startAt s₁).ReachableUnder (fun s a => s.ReadsClock a ∧ s.BehindWait) s₂ →
      s₂.DueForGc ∧
      (s₂.BehindWait → s₂.fault = none →
        (loopSystem.step s₂ (.thread s₂.currentMs)).isSome = true) ∧
      ∀ s₃, s₂.pc = .idleClean → loopSystem.step s₂ (.thread s₂.currentMs) = some s₃ →
        s₃.ex = (CoExecutor.clean s₂.currentMs { s₂.ex with cleanRightNow := false }).1) ∧
    ∀ s₂ s₃, (loopSystem.startAt s₁).ReachableUnder
        (fun s a => s.ReadsClock a ∧ s.LeavesIdle a ∧ s.BehindWait) s₂ → s₂.pc = .test →
      (loopSystem.startAt s₂).ReachableUnder (fun s a => s.ReadsClock a ∧ s.LeavesIdle a) s₃ →
      (s₃.ex.isStopping = false → s₃.ex.predicate s₃.currentMs = false) ∧
      ∀ timedOut, s₃.pc = .evaluate timedOut → s₃.ex.predicate s₃.currentMs = false := by
  have hdue : s.GcDue := gcDue_of_predicate (reachable_lastGcTick_le h) hrun hawoken hstop hpred
  obtain rfl := step_found hpc hpred hstep
  have hleave : DueForGc { s with pc := .leave } := .leave rfl ⟨hdue.finishedQueue, hdue.elapsed⟩
  have hrest : Resting { s with pc := .leave } := ⟨hrun, hawoken, rfl⟩
  constructor
  · intro s₂ hs₂
    have hdue₂ : s₂.DueForGc := hs₂.invariant_startAt hleave fun _ _ _ _ ht hG hstep =>
      ht.step hG.2 hG.1 hstep
    exact ⟨hdue₂, isSome_step_of_behindWait, fun s₃ => hdue₂.step_idleClean⟩
  · intro s₂ s₃ hs₂ hpc₂ hs₃
    have hdue₂ : s₂.DueForGc := hs₂.invariant_startAt hleave fun _ _ _ _ ht hG hstep =>
      ht.step hG.2.2 hG.1 hstep
    have hrest₂ : s₂.Resting := hs₂.invariant_startAt hrest fun _ _ _ _ ht hG hstep =>
      ht.step hG.2.1 hstep
    have hlater : s₃.Resting ∧ s₃.ex.finishedQueue = [] :=
      hs₃.invariant_startAt (I := fun t => t.Resting ∧ t.ex.finishedQueue = [])
        ⟨hrest₂, (hdue₂.cleaned hpc₂).finishedQueue⟩ fun _ _ _ _ ht hG hstep =>
          ⟨ht.1.step hG.2 hstep, ht.1.step_finishedQueue hstep ht.2⟩
    exact ⟨fun hstop₃ => hlater.1.predicate hlater.2 hstop₃ _,
      fun _ hpc₃ => hlater.1.predicate hlater.2 (hlater.1.not_stopping hpc₃) _⟩

/-- Two tasks have finished, the second of them more than `GC_INTERVAL_MS` ago: the iteration
removes it, and `Predicate` is false. -/
theorem idle_iteration_cleans_second_task :
    ∃ s s₁ s₂ : LoopState, loopSystem.ReachableUnder ReadsClock s ∧ s.pc = .evaluate false ∧
      s.ex.finishedQueue = [2] ∧ loopSystem.step s (.thread s.currentMs) = some s₁ ∧
      s₁.DueForGc ∧ (loopSystem.startAt s₁).Reachable s₂ ∧ s₂.ex.finishedQueue = [] ∧
      s₂.ex.predicate s₂.currentMs = false := by
  obtain ⟨s, hs, hp⟩ := exists_reachable_of_runUnder (G := ReadsClock) (M := loopSystem)
    (List.flatten [[.process 0], List.replicate 5 (.thread 1000000),
      [.addTask 0 1], List.replicate 3 (.client 0), List.replicate 10 (.thread 1000000),
      [.finish], List.replicate 8 (.thread 1000000),
      [.addTask 0 2], List.replicate 3 (.client 0), List.replicate 10 (.thread 1000000),
      [.finish], List.replicate 8 (.thread 1000000), [.elapse 3000000, .spurious]])
    (fun s => s.pc = .evaluate false && s.ex.finishedQueue = [2] && s.ex.runnableQueue = [] &&
      s.ex.awokenQueue = [] && s.ex.isStopping = false && s.ex.predicate s.currentMs &&
      ((loopSystem.step s (.thread s.currentMs)).bind fun s₁ =>
        (loopSystem.startAt s₁).runUnder
          (fun s a => s.ReadsClock a ∧ s.LeavesIdle a ∧ s.BehindWait) s₁
          [.thread s₁.currentMs, .thread s₁.currentMs]).map
        (fun s₂ => decide (s₂.pc = .test) && decide (s₂.ex.isStopping = false)) = some true)
    ⟨0, 1000000000, rfl⟩ (by decide)
  simp only [Bool.and_eq_true, decide_eq_true_eq] at hp
  obtain ⟨⟨⟨⟨⟨⟨hpc, hfin⟩, hrun⟩, hawoken⟩, hstop⟩, hpred⟩, hrest⟩ := hp
  obtain ⟨s₂, hrest, hs₂⟩ := Option.map_eq_some_iff.mp hrest
  obtain ⟨s₁, hstep, hrest⟩ := Option.bind_eq_some_iff.mp hrest
  simp only [Bool.and_eq_true, decide_eq_true_eq] at hs₂
  have hbehind := ReachableUnder.runUnder (.init rfl) hrest
  obtain ⟨hiteration, hafter⟩ := idle_iteration_cleans hs hpc hrun hawoken hstop hpred hstep
  have hdue : (loopSystem.startAt s₁).ReachableUnder
      (fun s a => s.ReadsClock a ∧ s.BehindWait) s₂ :=
    hbehind.weaken fun _ _ hG => ⟨hG.1, hG.2.2⟩
  have hreach : (loopSystem.startAt s₁).Reachable s₂ := hbehind.weaken fun _ _ _ => trivial
  have hquiet := (hafter s₂ s₂ hbehind hs₂.1 (.init rfl)).1 hs₂.2
  exact ⟨s, s₁, s₂, hs, hpc, hfin, hstep, (hiteration s₁ (.init rfl)).1, hreach,
    ((hiteration s₂ hdue).1.cleaned hs₂.1).finishedQueue, hquiet⟩

end LoopState

end CoroutineCpp
