import CoroutineCpp.Properties.Placement

/-!
# `WakeupAllTasks` and waking one by one

Waking tasks of executor `e` moves them from its waiting to its awoken queue and does nothing else
to the system (`Sched.moved`).  `WakeupFromEntry` locks its weak pointer a second time when the
waiting queue has already given up its reference, so a wakeup goes through where someone else
still holds the task (`WaitingHeld`); in a run whose tasks are submitted once that is the frame of
`HoldThere` on the coroutine's own stack, or the executor that still runs it
(`reachable_waitingHeld`).

`wakeupEntries_moved` is the induction over the wake order, `wakerLoop_moved` the one over the
drain loop; `wakeups_agree` puts them side by side.
-/

namespace CoroutineCpp

open Framework TransitionSystem TaskLedger

namespace Sched

/-! ## Moving tasks from waiting to awoken -/

/-- The state in which the waiting queue of executor `e` is `waiting` and the tasks `woken` have
been woken, in this order. -/
def moved (s : Sched) (e : ℕ) (waiting woken : List CoTaskPtr) : Sched :=
  { s.setExecutor e { s.executors e with
      waitingQueue := waiting, awokenQueue := (s.executors e).awokenQueue ++ woken } with
    wakes := s.wakes ++ woken }

/-- Someone besides the waiting queue of executor `e` holds the task. -/
def HeldElsewhere (s : Sched) (e : ℕ) (tk : CoTaskPtr) : Prop := (s.moved e [] []).alive tk = true

/-- The waiting tasks of executor `e` are distinct, and none hangs on the waiting queue alone. -/
structure WaitingHeld (s : Sched) (e : ℕ) : Prop where
  nodup : (s.executors e).waitingQueue.Nodup
  held : ∀ tk ∈ (s.executors e).waitingQueue, tk ≠ nullptr ∧ s.HeldElsewhere e tk

/-- `WakeupFromEntry` on executor `e` for one entry after the other, with what it returns. -/
def wakeupEntries (e : ℕ) : List RecoveryEntry → Sched → Sched × List Bool
  | [], s => (s, [])
  | entry :: entries, s =>
    let r := s.wakeupFromEntry e entry
    let r' := wakeupEntries e entries r.1
    (r'.1, r.2 :: r'.2)

variable {s : Sched} {e w : ℕ} {tk : CoTaskPtr} {waiting woken : List CoTaskPtr}

@[simp] lemma moved_waitingQueue (s : Sched) (e : ℕ) (waiting woken : List CoTaskPtr) :
    ((s.moved e waiting woken).executors e).waitingQueue = waiting := by
  simp [moved, setExecutor]

lemma moved_self (s : Sched) (e : ℕ) : s.moved e (s.executors e).waitingQueue [] = s := by
  simp [moved, setExecutor]

/-- What holds a task elsewhere holds it whatever is woken. -/
lemma HeldElsewhere.alive (h : s.HeldElsewhere e tk) (waiting woken : List CoTaskPtr) :
    (s.moved e waiting woken).alive tk = true := by
  simp only [HeldElsewhere, Sched.alive, Bool.or_eq_true, List.any_eq_true, List.mem_range] at h ⊢
  refine h.imp_left (.imp_left (.imp_left ?_))
  rintro ⟨e', he', h⟩
  refine ⟨e', he', ?_⟩
  by_cases heq : e' = e
  · subst heq
    simp only [moved, setExecutor, Function.update_self, List.contains_iff_mem, List.not_mem_nil,
      List.append_nil, List.mem_append, or_false] at h ⊢
    tauto
  · simpa [moved, setExecutor, heq] using h

/-! ## One by one -/

/-- `WakeupFromEntry` for a waiting task moves it to the end of the awoken queue. -/
lemma wakeupFromEntry_moved {entry : RecoveryEntry} (hmem : entry.tk ∈ waiting)
    (hheld : s.HeldElsewhere e entry.tk) :
    (s.moved e waiting woken).wakeupFromEntry e entry =
      (s.moved e (waiting.erase entry.tk) (woken ++ [entry.tk]), true) := by
  have hlock : (s.moved e waiting woken).lock entry.tk = entry.tk := if_pos (hheld.alive _ _)
  have herase : (s.moved e waiting woken).setExecutor e
      { (s.moved e waiting woken).executors e with waitingQueue := waiting.erase entry.tk } =
      s.moved e (waiting.erase entry.tk) woken := by
    simp [moved, setExecutor]
  have hlock' : (s.moved e (waiting.erase entry.tk) woken).lock entry.tk = entry.tk :=
    if_pos (hheld.alive _ _)
  simp only [wakeupFromEntry, hlock, moved_waitingQueue, if_pos hmem, herase, hlock']
  simp [moved, setExecutor, ThreadSafeDeque.pushBack]

/-- `WakeupFromEntry` for a task that does not wait changes nothing. -/
lemma wakeupFromEntry_of_notMem {entry : RecoveryEntry} (hmem : entry.tk ∉ waiting)
    (hheld : s.HeldElsewhere e entry.tk) :
    (s.moved e waiting woken).wakeupFromEntry e entry = (s.moved e waiting woken, false) := by
  have hlock : (s.moved e waiting woken).lock entry.tk = entry.tk := if_pos (hheld.alive _ _)
  simp only [wakeupFromEntry, hlock, moved_waitingQueue, if_neg hmem]

/-- Waking distinct waiting tasks in any order, by induction on that order. -/
lemma wakeupEntries_moved {entries : List RecoveryEntry}
    (hnodup : (entries.map RecoveryEntry.tk).Nodup)
    (hmem : ∀ entry ∈ entries, entry.tk ∈ waiting ∧ s.HeldElsewhere e entry.tk) :
    wakeupEntries e entries (s.moved e waiting woken) =
      (s.moved e (waiting.diff (entries.map RecoveryEntry.tk))
        (woken ++ entries.map RecoveryEntry.tk), List.replicate entries.length true) := by
  induction entries generalizing waiting woken with
  | nil => simp [wakeupEntries]
  | cons entry entries ih =>
    obtain ⟨⟨hwait, hheld⟩, hmem⟩ := List.forall_mem_cons.mp hmem
    obtain ⟨hnew, hnodup⟩ := List.nodup_cons.mp hnodup
    have hrest : ∀ entry' ∈ entries,
        entry'.tk ∈ waiting.erase entry.tk ∧ s.HeldElsewhere e entry'.tk := by
      intro entry' h'
      have hne : entry'.tk ≠ entry.tk := fun heq => hnew (heq ▸ List.mem_map_of_mem h')
      exact ⟨(List.mem_erase_of_ne hne).mpr (hmem entry' h').1, (hmem entry' h').2⟩
    simp only [wakeupEntries, wakeupFromEntry_moved hwait hheld, ih hnodup hrest]
    simp [List.diff_cons, List.replicate_succ]

/-! ## All at once -/

/-- One round of the loop of `WakeupAllTasks`, one queue call at a time. -/
lemma wakerRound (hfault : s.fault = none) (hpc : s.wakers w = .test e) (tk : CoTaskPtr) :
    schedSystem.runUnder (fun _ _ => True) (s.moved e (tk :: waiting) woken)
        (List.replicate 4 (.wakerStep w)) = some (s.moved e waiting (woken ++ [tk])) := by
  have hback : Function.update s.wakers w (.test e) = s.wakers := by
    rw [← hpc, Function.update_eq_self]
  simp [runUnder, schedSystem, step, act, wakerStep, moved, setExecutor, hfault, hpc, hback,
    List.replicate_succ, ThreadSafeDeque.pushBack]

/-- The loop of `WakeupAllTasks`, not interfered with, from its test on: four calls for each
waiting task, and the last test. -/
lemma wakerLoop_moved (hfault : s.fault = none) (hpc : s.wakers w = .test e)
    (waiting woken : List CoTaskPtr) :
    schedSystem.runUnder (fun _ _ => True) (s.moved e waiting woken)
        (List.replicate (4 * waiting.length + 1) (.wakerStep w)) =
      some { s.moved e [] (woken ++ waiting) with wakers := Function.update s.wakers w .idle } := by
  induction waiting generalizing woken with
  | nil =>
    simp [runUnder, schedSystem, step, act, wakerStep, moved, setExecutor, hfault, hpc]
  | cons tk waiting ih =>
    rw [List.length_cons, show 4 * (waiting.length + 1) + 1 = 4 + (4 * waiting.length + 1) by omega,
      List.replicate_add, runUnder_append, wakerRound hfault hpc, Option.bind_some, ih,
      List.append_assoc, List.singleton_append]

/-- `WakeupAllTasks` as a run of its queue calls, from a waker that does nothing else. -/
lemma wakerRun_moved (hfault : s.fault = none) (he : e < s.n) (hidle : s.wakers w = .idle) :
    schedSystem.runUnder (fun _ _ => True) s (.wakerStart w e ::
        List.replicate (4 * (s.executors e).waitingQueue.length + 1) (.wakerStep w)) =
      some (s.moved e [] (s.executors e).waitingQueue) := by
  have hstart : schedSystem.step s (.wakerStart w e) =
      some { s with wakers := Function.update s.wakers w (.test e) } := by
    simp [schedSystem, step, act, hfault, he, hidle]
  have hloop := wakerLoop_moved (s := { s with wakers := Function.update s.wakers w (.test e) })
    (w := w) hfault (Function.update_self ..) (s.executors e).waitingQueue []
  have hback : Function.update s.wakers w .idle = s.wakers := by
    rw [← hidle, Function.update_eq_self]
  rw [runUnder, if_pos trivial, hstart, Option.bind_some]
  simpa [moved, setExecutor, hback] using hloop

/-! ## The waiting tasks of a run -/

/-- Where each task is submitted once and `WakeupAllTasks` runs whole, the waiting tasks are
distinct, and each is held by the frame of `HoldThere` or by the executor that still runs it. -/
lemma reachable_waitingHeld {G : Sched → Act → Prop}
    (hG : ∀ s a, G s a → Fresh s a ∧ a.isWakerStep = false) (h : schedSystem.ReachableUnder G s)
    (he : e < s.n) : s.WaitingHeld e := by
  obtain ⟨hs, hp⟩ := reachable_placed hG h
  constructor
  · have hle : ((s.executors e).waitingQueue : Multiset CoTaskPtr) ≤ s.ledger.tokens := by
      refine Multiset.le_iff_count.mpr fun tk => ?_
      have hwait : ((s.executors e).waitingQueue : Multiset CoTaskPtr).count tk ≤
          s.ledger.waiting.count tk :=
        count_le_sum (f := fun i => ((s.executors i).waitingQueue : Multiset CoTaskPtr))
          (Finset.mem_range.mpr he)
      rw [count_tokens]
      omega
    exact Multiset.coe_nodup.mp (Multiset.nodup_of_le hle (hp.tokens_nodup hs))
  · intro tk htk
    refine ⟨hs.ne_null_of_co (hs.waiting_started e tk htk).co_ne, ?_⟩
    rcases hp.held_ok e tk (.inl htk) with hhold | ⟨-, -, -, hrun⟩
    · exact alive_of_stackRef (s := s.moved e [] []) (hs.ref_of_hold tk hhold)
    · refine alive_of_runningTask (s := s.moved e [] []) he ?_
      simpa [moved, setExecutor] using hrun

/-! ## Agreement -/

/-- **`WakeupAllTasks` agrees with waking one by one.**  In a state whose waiting tasks on executor
`e` are distinct and held elsewhere too:

* `WakeupAllTasks`, also as a run of its queue calls, ends with the waiting queue empty and the
  awoken queue extended by it;
* `WakeupFromEntry` on entries of all waiting tasks, in any order, returns true each time and ends
  with the waiting queue empty and the awoken queue extended in that order; in queue order that is
  the state `WakeupAllTasks` ends in;
* for a task that has been woken it returns false and changes nothing. -/
theorem wakeups_agree (he : e < s.n) (h : s.WaitingHeld e) :
    s.act (.wakeupAllTasks e) = some (s.moved e [] (s.executors e).waitingQueue) ∧
    (s.fault = none → ∀ w, s.wakers w = .idle →
      schedSystem.runUnder (fun _ _ => True) s (.wakerStart w e ::
          List.replicate (4 * (s.executors e).waitingQueue.length + 1) (.wakerStep w)) =
        s.act (.wakeupAllTasks e)) ∧
    (∀ entries : List RecoveryEntry,
      (entries.map RecoveryEntry.tk).Perm (s.executors e).waitingQueue →
      wakeupEntries e entries s =
        (s.moved e [] (entries.map RecoveryEntry.tk), List.replicate entries.length true)) ∧
    (∀ entries : List RecoveryEntry,
      entries.map RecoveryEntry.tk = (s.executors e).waitingQueue →
      s.act (.wakeupAllTasks e) = some (wakeupEntries e entries s).1) ∧
    ∀ woken later : List RecoveryEntry,
      ((woken ++ later).map RecoveryEntry.tk).Perm (s.executors e).waitingQueue →
      ∀ entry : RecoveryEntry, entry.tk ∈ woken.map RecoveryEntry.tk →
        (wakeupEntries e woken s).1.wakeupFromEntry e entry =
          ((wakeupEntries e woken s).1, false) := by
  have hall : s.act (.wakeupAllTasks e) = some (s.moved e [] (s.executors e).waitingQueue) := by
    simp [act, he, CoExecutor.wakeupAllTasks_eq, moved]
  -- entries of distinct waiting tasks
  have hsome : ∀ entries : List RecoveryEntry, (entries.map RecoveryEntry.tk).Nodup →
      (∀ tk ∈ entries.map RecoveryEntry.tk, tk ∈ (s.executors e).waitingQueue) →
      wakeupEntries e entries s =
        (s.moved e ((s.executors e).waitingQueue.diff (entries.map RecoveryEntry.tk))
          (entries.map RecoveryEntry.tk), List.replicate entries.length true) := by
    intro entries hnodup hmem
    have hheld : ∀ entry ∈ entries, entry.tk ∈ (s.executors e).waitingQueue ∧
        s.HeldElsewhere e entry.tk := by
      intro entry hentry
      have hwait := hmem entry.tk (List.mem_map_of_mem hentry)
      exact ⟨hwait, (h.held entry.tk hwait).2⟩
    have hmoved : wakeupEntries e entries (s.moved e (s.executors e).waitingQueue []) =
        (s.moved e ((s.executors e).waitingQueue.diff (entries.map RecoveryEntry.tk))
          ([] ++ entries.map RecoveryEntry.tk), List.replicate entries.length true) :=
      wakeupEntries_moved hnodup hheld
    rwa [moved_self, List.nil_append] at hmoved
  have hperm : ∀ entries : List RecoveryEntry,
      (entries.map RecoveryEntry.tk).Perm (s.executors e).waitingQueue →
      wakeupEntries e entries s =
        (s.moved e [] (entries.map RecoveryEntry.tk), List.replicate entries.length true) := by
    intro entries hentries
    have hnil : (s.executors e).waitingQueue.diff (entries.map RecoveryEntry.tk) = [] := by
      refine List.eq_nil_iff_forall_not_mem.mpr fun tk htk => ?_
      obtain ⟨hwait, hnot⟩ := h.nodup.mem_sdiff_iff.mp htk
      exact hnot (hentries.mem_iff.mpr hwait)
    rw [hsome entries (hentries.nodup_iff.mpr h.nodup) fun tk => hentries.mem_iff.mp, hnil]
  refine ⟨hall, fun hfault w hidle => ?_, hperm, fun entries hentries => ?_, ?_⟩
  · rw [hall, wakerRun_moved hfault he hidle]
  · rw [hperm entries (.of_eq hentries), hall, hentries]
  · intro woken later hentries entry hentry
    have hnodup := hentries.nodup_iff.mpr h.nodup
    rw [List.map_append] at hnodup hentries
    have hwait : ∀ tk ∈ woken.map RecoveryEntry.tk, tk ∈ (s.executors e).waitingQueue :=
      fun tk htk => hentries.mem_iff.mp (List.mem_append_left _ htk)
    have hgone : entry.tk ∉
        (s.executors e).waitingQueue.diff (woken.map RecoveryEntry.tk) := fun hmem =>
      (h.nodup.mem_sdiff_iff.mp hmem).2 hentry
    rw [hsome woken hnodup.of_append_left hwait]
    exact wakeupFromEntry_of_notMem hgone (h.held entry.tk (hwait entry.tk hentry)).2

/-- Three held tasks, woken last to first; each wakeup goes through, and a second one for the task
woken first does not. -/
theorem wakeups_agree_three :
    ∃ s, schedSystem.ReachableUnder (fun s a => Fresh s a ∧ a.isWakerStep = false) s ∧
      (s.executors 0).waitingQueue = [1, 2, 3] ∧
      wakeupEntries 0 [⟨3, 7⟩, ⟨2, 7⟩, ⟨1, 7⟩] s = (s.moved 0 [] [3, 2, 1], [true, true, true]) ∧
      (wakeupEntries 0 [⟨3, 7⟩] s).1.wakeupFromEntry 0 ⟨3, 7⟩ =
        ((wakeupEntries 0 [⟨3, 7⟩] s).1, false) := by
  obtain ⟨s, hs, hp⟩ := exists_reachable_of_runUnder
    (G := fun s a => Fresh s a ∧ a.isWakerStep = false) (M := schedSystem)
    [.addTasks 0 [1, 2, 3], .process 0 0, .pick 0 0 0, .hold 0 0, .pick 0 0 0, .hold 0 0,
      .pick 0 0 0, .hold 0 0]
    (fun s => (s.executors 0).waitingQueue = [1, 2, 3] && decide (0 < s.n))
    ⟨1, fun _ => 7, rfl⟩ (by decide)
  simp only [Bool.and_eq_true, decide_eq_true_eq] at hp
  obtain ⟨hwait, hn⟩ := hp
  have hheld := reachable_waitingHeld (fun _ _ h => h) hs hn
  obtain ⟨-, -, hperm, -, hsecond⟩ := wakeups_agree hn hheld
  refine ⟨s, hs, hwait, hperm [⟨3, 7⟩, ⟨2, 7⟩, ⟨1, 7⟩] ?_,
    hsecond [⟨3, 7⟩] [⟨2, 7⟩, ⟨1, 7⟩] ?_ ⟨3, 7⟩ (by simp)⟩
  · rw [hwait]
    decide
  · rw [hwait]
    decide

end Sched

end CoroutineCpp
