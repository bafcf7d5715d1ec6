import CoroutineCpp.Properties.Provenance

/-!
# Batch submission

`AddTask(CoTaskPtr)` returns for a null pointer and notifies after each push; `AddTask(begin, end)`
pushes whatever the range holds and notifies once.  `addTasks_agrees_iff` says when the two come to
the same, and which runs keep null pointers out of the runnable queues: those whose batches hold
none.
-/

namespace CoroutineCpp

open Framework TransitionSystem

namespace CoExecutor

/-- `AddTask(CoTaskPtr)` on the elements of a range one after another; the second component tells
whether any of the calls notified. -/
def addTaskEach : List CoTaskPtr → CoExecutor → CoExecutor × Bool
  | [], ex => (ex, false)
  | tk :: tks, ex =>
    let r := ex.addTask tk
    let rest := addTaskEach tks r.1
    (rest.1, r.2 || rest.2)

variable {tk : CoTaskPtr} {tks : List CoTaskPtr} {ex : CoExecutor}

lemma addTask_waiting : (ex.addTask tk).1.waiting = ex.waiting := by
  rw [addTask_fst]

/-- The single calls leave the null pointers out. -/
lemma addTaskEach_fst (tks : List CoTaskPtr) (ex : CoExecutor) :
    (addTaskEach tks ex).1 =
      { ex with runnableQueue := ex.runnableQueue ++ tks.filter (· ≠ nullptr) } := by
  induction tks generalizing ex with
  | nil => simp [addTaskEach]
  | cons tk tks ih =>
    simp only [addTaskEach, ih, addTask_fst]
    by_cases h : tk = nullptr
    · simp [h]
    · simp [h, List.append_assoc]

/-- One of them notifies a waiting executor as soon as one pointer is not null. -/
lemma addTaskEach_snd (tks : List CoTaskPtr) (ex : CoExecutor) :
    (addTaskEach tks ex).2 = (ex.waiting && tks.any (· ≠ nullptr)) := by
  induction tks generalizing ex with
  | nil => simp [addTaskEach]
  | cons tk tks ih =>
    simp only [addTaskEach, ih, addTask_waiting, List.any_cons]
    by_cases h : tk = nullptr
    · simp [addTask, h]
    · cases hw : ex.waiting <;> simp [addTask, h, hw]

/-- The batch leaves the same runnable queue exactly if it holds no null pointer. -/
lemma addTasks_fst_eq_iff : (ex.addTasks tks).1 = (addTaskEach tks ex).1 ↔ nullptr ∉ tks := by
  rw [addTasks_fst, addTaskEach_fst]
  constructor
  · intro h hnull
    have hq : tks = tks.filter (· ≠ nullptr) :=
      List.append_cancel_left (congrArg CoExecutor.runnableQueue h)
    rw [hq] at hnull
    simpa using (List.mem_filter.mp hnull).2
  · intro h
    have hq : tks.filter (· ≠ nullptr) = tks :=
      List.filter_eq_self.mpr fun tk htk => by simpa using fun heq : tk = nullptr => h (heq ▸ htk)
    rw [hq]

/-- The batch notifies an executor that waits, whatever it holds. -/
lemma addTasks_snd_eq_iff :
    (ex.addTasks tks).2 = (addTaskEach tks ex).2 ↔
      ex.waiting = true → ∃ tk ∈ tks, tk ≠ nullptr := by
  rw [addTaskEach_snd]
  cases hw : ex.waiting <;> simp [addTasks, hw]

end CoExecutor

namespace Sched

variable {s s' : Sched} {a : Act}

/-- No null pointer is in a runnable queue, or on its way from one to another. -/
def NullFree (s : Sched) : Prop := ¬ s.Unpicked nullptr

/-- The step submits no null pointer in a batch. -/
def BatchNullFree (_ : Sched) (a : Act) : Prop := ∀ e tks, a = .addTasks e tks → nullptr ∉ tks

lemma nullptr_mem_enqueues (h : nullptr ∈ a.enqueues) :
    ∃ e tks, a = .addTasks e tks ∧ nullptr ∈ tks := by
  cases a with
  | addTasks e tks => exact ⟨e, tks, rfl, h⟩
  | addTask e tk | schedulerTask _ tk =>
    simp only [Act.enqueues] at h
    split_ifs at h with htk
    · cases h
    · exact absurd (List.mem_singleton.mp h).symm htk
  | _ => cases h

/-- A batch with a null pointer puts it into the queue; nothing else brings one in. -/
lemma step_nullFree_iff (hreach : schedSystem.Reachable s) (hs : s.NullFree)
    (h : s.act a = some s') : s'.NullFree ↔ BatchNullFree s a := by
  constructor
  · rintro hs' e tks rfl hnull
    obtain ⟨he, h⟩ := Option.ite_none_right_eq_some.mp h
    obtain rfl := Option.some.inj h
    refine hs' (.inl ⟨e, he, ?_⟩)
    simp [addTasks, setExecutor, hnull]
  · intro hbatch hnull
    obtain ⟨hsize, hlt⟩ := reachable_bounds hreach
    rcases (act_enqueued hsize hlt h).queued nullptr hnull with hold | hnew
    · exact hs hold
    · obtain ⟨e, tks, rfl, htks⟩ := nullptr_mem_enqueues hnew
      exact hbatch e tks rfl htks

/-- **When batch and single submission agree.**  They leave the same executor and make the same
decision to notify exactly if the range holds no null pointer, and is not an empty range given to a
waiting executor; and no null pointer is ever queued exactly if no batch holds one. -/
theorem addTasks_agrees_iff (tks : List CoTaskPtr) (ex : CoExecutor) {tr : List (Sched × Act)}
    (h : schedSystem.Exec (fun _ _ => True) tr s) :
    (ex.addTasks tks = CoExecutor.addTaskEach tks ex ↔
      nullptr ∉ tks ∧ (tks = [] → ex.waiting = false)) ∧
    (AlwaysState NullFree tr s ↔ AlwaysStep BatchNullFree tr) := by
  refine ⟨?_, h.always_iff (fun s hs => ?_) fun s a s' hreach hs _ hstep => ?_⟩
  · rw [Prod.ext_iff, CoExecutor.addTasks_fst_eq_iff, CoExecutor.addTasks_snd_eq_iff]
    refine and_congr_right fun hnull => ?_
    cases tks with
    | nil => simp
    | cons tk tks =>
      have htk : tk ≠ nullptr := fun heq => hnull (heq ▸ List.mem_cons_self)
      exact iff_of_true (fun _ => ⟨tk, List.mem_cons_self, htk⟩) fun h => by cases h
  · obtain ⟨n, id, rfl⟩ := hs
    rintro (⟨e, -, hmem⟩ | ⟨hpc, -⟩)
    · cases hmem
    · exact hpc rfl
  · exact step_nullFree_iff hreach hs (act_of_step hstep)

/-- A run with a batch of two tasks, the second of which is then stolen by the dispatcher. -/
theorem addTasks_agrees_iff_two_tasks :
    ∃ tr s, schedSystem.Exec (fun _ _ => True) tr s ∧ s.submitted = [1, 2] ∧
      (CoExecutor.addTasks [1, 2] {} = CoExecutor.addTaskEach [1, 2] {} ↔
        nullptr ∉ [1, 2] ∧ (([1, 2] : List CoTaskPtr) = [] →
          (({} : CoExecutor)).waiting = false)) ∧
      (AlwaysState NullFree tr s ↔ AlwaysStep BatchNullFree tr) := by
  obtain ⟨s, hs, hp⟩ := exists_reachable_of_runUnder (G := fun _ _ => True) (M := schedSystem)
    [.addTasks 0 [1, 2], .dispatch fun _ => 0] (fun s => s.submitted = [1, 2])
    ⟨2, fun e => e, rfl⟩ (by decide)
  obtain ⟨tr, htr⟩ := hs.exists_exec
  exact ⟨tr, s, htr, of_decide_eq_true hp, addTasks_agrees_iff [1, 2] {} htr⟩

/-- A batch of one null pointer: it is pushed, the single call would not have pushed it, and
`Process` dereferences it. -/
theorem addTasks_pushes_null :
    (CoExecutor.addTasks [nullptr] {} ≠ CoExecutor.addTaskEach [nullptr] {} ∧
      (CoExecutor.addTasks [nullptr] {}).1.runnableQueue = [nullptr]) ∧
    ∃ s, schedSystem.Reachable s ∧ s.fault = some .nullTask := by
  refine ⟨by decide, ?_⟩
  obtain ⟨s, hs, hp⟩ := exists_reachable_of_runUnder (G := fun _ _ => True) (M := schedSystem)
    [.addTasks 0 [nullptr], .process 0 0, .pick 0 0 0] (fun s => s.fault = some .nullTask)
    ⟨1, fun e => e, rfl⟩ (by decide)
  exact ⟨s, hs, of_decide_eq_true hp⟩

end Sched

end CoroutineCpp
