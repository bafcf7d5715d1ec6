import CoroutineCpp.Properties.Provenance

/-!
# The life of a recovery entry

A recovery entry outlives the task it was written for.  `RecoveryEntry::Expired` is to tell when the
task object is gone, and has its two answers the wrong way round: `expired_inverted` says that in no
reachable state it is right about any entry, and that its negation is exactly what it should be,
true from the destruction of the task on and never true of an entry that `Wakeup` can still use.
-/

namespace CoroutineCpp

open Framework TransitionSystem

namespace Sched

/-- A step that submits no task which was held and is destroyed by now, and is not a part of a
`WakeupAllTasks`.  Nobody has a pointer left to submit such a task by. -/
def SubmitsOwned (s : Sched) (a : Act) : Prop :=
  (∀ entry ∈ s.entries, entry.tk ∈ a.submits → s.alive entry.tk = true) ∧ a.isWakerStep = false

instance (s : Sched) (a : Act) : Decidable (SubmitsOwned s a) := inferInstanceAs (Decidable (_ ∧ _))

variable {s s' : Sched} {e timeoutMs nowMs : ℕ} {last : Bool} {entry : RecoveryEntry}
  {tk : CoTaskPtr}

/-! ## Which entries are written -/

/-- Entries are only added, and each names a task. -/
def Writes (s s' : Sched) : Prop :=
  ∃ written, s'.entries = s.entries ++ written ∧ ∀ entry ∈ written, entry.tk ≠ nullptr

lemma Writes.of_eq (h : s'.entries = s.entries) : Writes s s' := ⟨[], by simp [h], by simp⟩

lemma Writes.trans {s₁ : Sched} (h : Writes s s₁) (h' : Writes s₁ s') : Writes s s' := by
  obtain ⟨written, heq, hne⟩ := h
  obtain ⟨written', heq', hne'⟩ := h'
  refine ⟨written ++ written', by rw [heq', heq, List.append_assoc], fun entry hmem => ?_⟩
  exact (List.mem_append.mp hmem).elim (hne entry) (hne' entry)

lemma endIteration_entries :
    (s.endIteration e timeoutMs last nowMs).entries = s.entries := by
  simp only [Sched.endIteration]
  split <;> rfl

lemma switchOut_entries {ctx : Coroutine → Option ThreadId} {f : Coroutine → Coroutine}
    {stackRef : Bool} :
    (s.switchOut e timeoutMs last nowMs ctx f stackRef).entries = s.entries := by
  simp only [Sched.switchOut]
  split
  · exact endIteration_entries
  · rfl

lemma pick_entries {nowUs : ℕ} :
    (s.pick e timeoutMs last nowUs nowMs).entries = s.entries := by
  simp only [Sched.pick, Sched.runTask]
  repeat' split
  all_goals first | rfl | exact endIteration_entries

lemma yieldCurrent_entries : (s.yieldCurrent e timeoutMs last nowMs).entries = s.entries := by
  simp only [Sched.yieldCurrent]
  split
  · rfl
  · exact switchOut_entries

lemma holdPush_writes : Writes s (s.holdPush e timeoutMs last) := by
  simp only [Sched.holdPush]
  split
  · exact .of_eq rfl
  next p _ =>
    split
    · exact .of_eq rfl
    next hne =>
      split
      · exact .of_eq rfl
      · exact ⟨_, rfl, by simpa using hne⟩

lemma holdSwitch_entries {p : ℕ} :
    (s.holdSwitch e timeoutMs last p nowMs).entries = s.entries := by
  simp only [Sched.holdSwitch]
  split
  · exact switchOut_entries
  · rfl

lemma hold_writes : Writes s (s.hold e timeoutMs last nowMs) := by
  simp only [Sched.hold]
  split
  · exact holdPush_writes.trans (.of_eq holdSwitch_entries)
  · exact holdPush_writes

/-- **Only `Hold` writes an entry, and only for a task that runs.** -/
lemma act_writes {a : Act} (h : s.act a = some s') : Writes s s' := by
  cases act_move h with
  | pick => exact .of_eq pick_entries
  | hold => exact hold_writes
  | holdPush => exact holdPush_writes
  | holdSwitch => exact .of_eq holdSwitch_entries
  | yield => exact .of_eq yieldCurrent_entries
  | finish | throw => exact .of_eq switchOut_entries
  | wakeupFromEntry | wakeup =>
    refine .of_eq ?_
    simp only [Sched.wakeupFromEntry]
    split <;> rfl
  | wakerStep hstep =>
    refine .of_eq ?_
    simp only [Sched.wakerStep] at hstep
    repeat' split at hstep
    all_goals first | (obtain rfl := Option.some.inj hstep; rfl) | cases hstep
  | _ => exact .of_eq rfl

/-! ## Runs -/

lemma reachable_entry (h : schedSystem.ReachableUnder SubmitsOwned s) :
    ∀ entry ∈ s.entries, entry.tk ≠ nullptr := by
  refine h.invariant (I := fun s => ∀ entry ∈ s.entries, entry.tk ≠ nullptr) (fun s hs => ?_)
    fun s a s' _ hs _ hstep => ?_
  · obtain ⟨n, id, rfl⟩ := hs
    simp
  · obtain ⟨written, heq, hne⟩ := act_writes (act_of_step hstep)
    rw [heq]
    exact fun entry hmem => (List.mem_append.mp hmem).elim (hs entry) (hne entry)

/-- **A held task that is destroyed stays destroyed.** -/
lemma step_dead {a : Act} (hreach : schedSystem.ReachableUnder SubmitsOwned s)
    (hG : SubmitsOwned s a) (h : s.act a = some s') (hmem : entry ∈ s.entries)
    (hdead : s.alive entry.tk = false) : s'.alive entry.tk = false := by
  obtain ⟨hsize, hlt⟩ := reachable_bounds (hreach.weaken fun _ _ _ => trivial)
  have hne := reachable_entry hreach entry hmem
  by_contra halive
  rcases (act_supplied hsize hlt hG.2 h).alive entry.tk hne (by simpa using halive) with
    hold | hnew
  · simp [hdead] at hold
  · have hsub : entry.tk ∈ a.submits := by
      cases a with
      | addTasks => exact hnew
      | addTask | schedulerTask =>
        simp only [Act.enqueues] at hnew
        split_ifs at hnew
        · cases hnew
        · exact hnew
      | _ => cases hnew
    simp [hG.1 entry hmem hsub] at hdead

lemma startAt_dead (hreach : schedSystem.ReachableUnder SubmitsOwned s) (hmem : entry ∈ s.entries)
    (hdead : s.alive entry.tk = false)
    (h : (schedSystem.startAt s).ReachableUnder SubmitsOwned s') : s'.alive entry.tk = false := by
  have hboth : entry ∈ s'.entries ∧ s'.alive entry.tk = false := by
    refine h.invariant_startAt (I := fun t => entry ∈ t.entries ∧ t.alive entry.tk = false)
      ⟨hmem, hdead⟩ fun t a t' h' ht hG hstep => ?_
    have hact := act_of_step hstep
    obtain ⟨written, heq, -⟩ := act_writes hact
    exact ⟨heq ▸ List.mem_append_left _ ht.1, step_dead (.of_startAt hreach h') hG hact ht.1 ht.2⟩
  exact hboth.2

/-! ## What an entry tells -/

lemma lock_eq_null_iff (hne : tk ≠ nullptr) : s.lock tk = nullptr ↔ s.alive tk = false := by
  unfold lock
  split_ifs with h <;> simp [h, hne]

/-- `Expired()` is true of the entries whose task is left. -/
lemma expired_iff (hne : entry.tk ≠ nullptr) :
    s.expired entry = true ↔ s.alive entry.tk = true := by
  unfold expired
  rw [← Bool.not_eq_false (s.alive _), ← lock_eq_null_iff hne]
  split_ifs with h <;> simp [h]

/-- **`Expired()` is the wrong way round.**  It is right about no entry of `Hold` in any reachable
state.  It is false exactly of the entries whose task is destroyed; false once, it stays false; and
then `Wakeup` returns false. -/
theorem expired_inverted (h : schedSystem.ReachableUnder SubmitsOwned s)
    (hmem : entry ∈ s.entries) :
    ¬ (s.expired entry = true ↔ s.alive entry.tk = false) ∧
    (s.expired entry = false ↔ s.alive entry.tk = false) ∧
    (s.expired entry = false →
      (∀ s', (schedSystem.startAt s).ReachableUnder SubmitsOwned s' → s'.expired entry = false) ∧
        s.wakeup entry = some (s, false)) := by
  have hne := reachable_entry h entry hmem
  have hiff : ∀ s' : Sched, s'.expired entry = false ↔ s'.alive entry.tk = false := fun s' => by
    rw [← Bool.not_eq_true, ← Bool.not_eq_true, expired_iff hne]
  refine ⟨fun hexp => ?_, hiff s, fun hexp => ⟨fun s' hs' => ?_, ?_⟩⟩
  · rw [expired_iff hne] at hexp
    cases hv : s.alive entry.tk <;> simp [hv] at hexp
  · exact (hiff s').mpr (startAt_dead h hmem ((hiff s).mp hexp) hs')
  · have hlock : s.lock entry.tk = nullptr := (lock_eq_null_iff hne).mpr ((hiff s).mp hexp)
    simp [Sched.wakeup, entryValid, hlock]

/-- A task is held, woken, resumed and finished, and then `Clean` drops the last pointer to it. -/
theorem expired_inverted_reclaimed :
    ∃ s, schedSystem.ReachableUnder SubmitsOwned s ∧ s.entries = [{ tk := 1, id := 7 }] ∧
      s.reclaimed = [1] ∧ s.alive 1 = false ∧ s.expired { tk := 1, id := 7 } = false ∧
      s.wakeup { tk := 1, id := 7 } = some (s, false) := by
  obtain ⟨s, hs, hp⟩ := exists_reachable_of_runUnder (G := SubmitsOwned) (M := schedSystem)
    [.addTask 0 1, .process 0 0, .pick 0 0 0, .hold 0 0,
      .wakeupFromEntry 0 { tk := 1, id := 7 }, .pick 0 0 0, .finish 0 0, .clean 0 0]
    (fun s => s.entries = [{ tk := 1, id := 7 }] && s.reclaimed = [1] && !s.alive 1)
    ⟨1, fun _ => 7, rfl⟩ (by decide)
  simp only [Bool.and_eq_true, decide_eq_true_eq, Bool.not_eq_true'] at hp
  obtain ⟨⟨hentries, hrec⟩, hdead⟩ := hp
  have hmem : ({ tk := 1, id := 7 } : RecoveryEntry) ∈ s.entries := by simp [hentries]
  obtain ⟨-, hiff, hrest⟩ := expired_inverted hs hmem
  exact ⟨s, hs, hentries, hrec, hdead, hiff.mpr hdead, (hrest (hiff.mpr hdead)).2⟩

/-- A task that is held: `Expired()` is true although the task is there, and `Wakeup` wakes it. -/
theorem expired_while_held :
    ∃ s entry, schedSystem.ReachableUnder SubmitsOwned s ∧ entry ∈ s.entries ∧
      s.alive entry.tk = true ∧ s.expired entry = true ∧
      (s.wakeup entry).map Prod.snd = some true := by
  obtain ⟨s, hs, hp⟩ := exists_reachable_of_runUnder (G := SubmitsOwned) (M := schedSystem)
    [.addTask 0 1, .process 0 0, .pick 0 0 0, .hold 0 0]
    (fun s => s.entries = [{ tk := 1, id := 7 }] && s.alive 1 && s.expired { tk := 1, id := 7 } &&
      (s.wakeup { tk := 1, id := 7 }).map Prod.snd = some true)
    ⟨1, fun _ => 7, rfl⟩ (by decide)
  simp only [Bool.and_eq_true, decide_eq_true_eq] at hp
  obtain ⟨⟨⟨hentries, halive⟩, hexp⟩, hwake⟩ := hp
  exact ⟨s, { tk := 1, id := 7 }, hs, by simp [hentries], halive, hexp, hwake⟩

end Sched

end CoroutineCpp
