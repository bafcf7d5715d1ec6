import CoroutineCpp.Properties.ProcessMoves

/-!
# The ways through `Process`

Where the thread of an executor can go from a point of `Process` with one move of its own (`Goes`),
and that the other threads move it only by a notification (`step_pc_of_other`).  A bound on the
moves until something happens is a number for each point that goes down along every way that is
left open, so it is proved by cases on `Goes`.
-/

namespace CoroutineCpp

open Framework

/-- A move of the thread in `Process` or of the coroutine it runs. -/
def LoopAct.ofThread : LoopAct → Bool
  | .thread _ | .spurious | .timeout | .holdPush | .holdSwitch | .yield | .finish | .throw _ => true
  | _ => false

/-- A new call of `Process`. -/
def LoopAct.isProcess : LoopAct → Bool
  | .process _ => true
  | _ => false

namespace LoopState

variable {s s' : LoopState} {a : LoopAct}

lemma fault_of_step (h : s.step a = some s') : s.fault = none := by
  simpa using (Option.ite_none_left_eq_some.mp h).1

/-- The ways from one point of `Process` to the next, with what was tested on them. -/
inductive Goes (s : LoopState) : LoopPc → LoopPc → Prop
  | exit (h : s.ex.isStopping = true) : Goes s .test .outside
  | go (h : s.ex.isStopping = false) : Goes s .test .choose
  | idle (hrun : s.ex.runnableQueue = []) (hawoken : s.ex.awokenQueue = []) :
      Goes s .choose .setWaiting
  | picked (fromAwoken : Bool) : Goes s .choose (.assign fromAwoken)
  | assigned {fromAwoken : Bool} (h : (s.ex.assignRunnableTask fromAwoken).isSome) :
      Goes s (.assign fromAwoken) .count
  | count : Goes s .count .stamp
  | stamp : Goes s .stamp .resume
  | over : Goes s .resume .counted
  | resume : Goes s .resume .inside
  | held : Goes s .inside .holding
  | leavesCpu : Goes s .inside .counted
  | switched : Goes s .holding .counted
  | counted : Goes s .counted .settle
  | settled : Goes s .settle .gcTest
  | thrown : Goes s .settle .outside
  | next : Goes s .gcTest .test
  | waits : Goes s .setWaiting (.evaluate false)
  | missed (hrun : s.ex.runnableQueue = []) (hawoken : s.ex.awokenQueue = [])
      (hst : s.ex.isStopping = false) : Goes s (.evaluate false) .block
  | waited (timedOut : Bool) : Goes s (.evaluate timedOut) .leave
  | sleeps : Goes s .block (.blocked false)
  | woken (notified timedOut : Bool) : Goes s (.blocked notified) (.evaluate timedOut)
  | leave : Goes s .leave .idleClean
  | again : Goes s .idleClean .test

/-- A predicate that is false has not found the executor told to stop. -/
lemma isStopping_of_predicate {nowMs : ℕ} (h : ¬s.ex.predicate nowMs = true) :
    s.ex.isStopping = false := by
  cases hst : s.ex.isStopping with
  | false => rfl
  | true => exact absurd (by simp [CoExecutor.predicate, hst]) h

/-- Outside `Process` there is no thread to move. -/
lemma ne_outside_of_step (ha : a.ofThread = true) (h : s.step a = some s') : s.pc ≠ .outside := by
  intro hpc
  have h := act_of_step h
  cases a <;> first
    | simp [act, threadStep, hpc] at h; done
    | cases ha

lemma threadStep_goes {nowMs : ℕ} (h : s.threadStep nowMs = some s') :
    s'.fault.isSome ∨ Goes s s.pc s'.pc := by
  unfold threadStep at h
  cases hpc : s.pc with
  | outside | inside | holding => simp [hpc] at h
  | test =>
    simp only [hpc, Option.some.injEq] at h
    subst h
    dsimp only
    split
    next hst => exact .inr (.exit hst)
    next hst => exact .inr (.go (by simpa using hst))
  | choose =>
    simp only [hpc] at h
    obtain ⟨-, h⟩ := Option.ite_none_right_eq_some.mp h
    split at h
    next hq =>
      obtain ⟨hrun, hawoken⟩ := CoExecutor.chooseQueue_eq_none_iff.mp hq
      obtain rfl := Option.some.inj h
      exact .inr (.idle hrun hawoken)
    next b _ =>
      obtain rfl := Option.some.inj h
      exact .inr (.picked b)
  | assign b =>
    simp only [hpc] at h
    obtain ⟨-, h⟩ := Option.ite_none_right_eq_some.mp h
    split at h
    · obtain rfl := Option.some.inj h
      exact .inl rfl
    next hassign =>
      split at h
      · obtain rfl := Option.some.inj h
        exact .inl rfl
      · obtain rfl := Option.some.inj h
        exact .inr (.assigned (by simp [hassign]))
  | resume =>
    simp only [hpc, Option.some.injEq] at h
    subst h
    unfold resumeTask
    dsimp only
    split
    · exact .inl rfl
    · exact .inr .over
    · exact .inr .resume
  | settle =>
    simp only [hpc, Option.some.injEq] at h
    subst h
    unfold settle
    dsimp only
    split
    · exact .inr .settled
    · split
      · exact .inr .thrown
      · exact .inr .settled
    · exact .inr .settled
  | evaluate timedOut =>
    simp only [hpc] at h
    obtain ⟨-, h⟩ := Option.ite_none_right_eq_some.mp h
    split at h
    · obtain rfl := Option.some.inj h
      exact .inr (.waited timedOut)
    next hpred =>
      obtain ⟨hrun, hawoken⟩ := predicate_eq_false hpred
      cases timedOut with
      | true =>
        obtain rfl := Option.some.inj h
        exact .inr (.waited true)
      | false =>
        obtain rfl := Option.some.inj h
        exact .inr (.missed hrun hawoken (isStopping_of_predicate hpred))
  | blocked notified =>
    simp only [hpc] at h
    obtain ⟨-, h⟩ := Option.ite_none_right_eq_some.mp h
    obtain rfl := Option.some.inj h
    exact .inr (.woken notified false)
  | gcTest =>
    simp only [hpc] at h
    split at h <;> obtain rfl := Option.some.inj h
    · exact .inr .next
    · exact .inr .next
  | _ =>
    simp only [hpc, Option.some.injEq] at h
    subst h
    exact .inr (by constructor)

/-- **A move of the thread goes one of these ways**, or ends in a fault. -/
lemma step_goes (ha : a.ofThread = true) (h : s.step a = some s') :
    s'.fault.isSome ∨ Goes s s.pc s'.pc := by
  have h := act_of_step h
  cases a with
  | thread nowMs => exact threadStep_goes h
  | spurious =>
    simp only [act] at h
    split at h <;> cases h
    next notified hpc => exact .inr (hpc ▸ .woken notified false)
  | timeout =>
    simp only [act] at h
    repeat' split at h
    all_goals cases h
    next notified hpc _ => exact .inr (hpc ▸ .woken notified true)
  | holdPush =>
    obtain ⟨hpc, h⟩ := Option.ite_none_right_eq_some.mp h
    obtain rfl := Option.some.inj h
    exact .inr (hpc ▸ .held)
  | holdSwitch =>
    obtain ⟨hpc, h⟩ := Option.ite_none_right_eq_some.mp h
    obtain rfl := Option.some.inj h
    exact .inr (hpc ▸ .switched)
  | yield | finish | throw =>
    obtain ⟨hpc, h⟩ := Option.ite_none_right_eq_some.mp h
    obtain rfl := Option.some.inj h
    exact .inr (hpc ▸ .leavesCpu)
  | _ => cases ha

lemma clientStep_pc {c : ℕ} (h : s.clientStep c = some s') :
    s'.pc = s.pc ∨ s'.pc = notifyAll s.pc := by
  unfold clientStep at h
  repeat' split at h
  all_goals first
    | cases h; exact .inl rfl
    | cases h; exact .inr rfl
    | cases h

/-- The other threads move it at most by a notification. -/
lemma step_pc_of_other (ha : a.ofThread = false) (hproc : a.isProcess = false)
    (h : s.step a = some s') : s'.pc = s.pc ∨ s'.pc = notifyAll s.pc := by
  have h := act_of_step h
  cases a with
  | process => cases hproc
  | thread | spurious | timeout | holdPush | holdSwitch | yield | finish | throw => cases ha
  | client c => exact clientStep_pc h
  | readClock v | readTick v | readSwitchCnt v | readSwitchedCnt v =>
    obtain ⟨ev, -, -, rfl⟩ := readOperand_eq_some h
    exact .inl rfl
  | stop | elapse us =>
    obtain rfl := Option.some.inj h
    exact .inl rfl
  | _ =>
    obtain ⟨-, h⟩ := Option.ite_none_right_eq_some.mp h
    obtain rfl := Option.some.inj h
    exact .inl rfl

end LoopState

end CoroutineCpp
