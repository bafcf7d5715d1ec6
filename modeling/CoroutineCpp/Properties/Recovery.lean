import CoroutineCpp.Properties.Affinity
import CoroutineCpp.Properties.Ledger

/-!
# `Hold`, and `Wakeup` with the entry it wrote

An entry of `Hold` names the task and the executor that holds it (`Recorded`), so the member
`WakeupFromEntry` of that executor finds the task while it waits.  The static `Wakeup` tests the
entry first, and the test takes the id `0` for "no executor".  Executors do have that id: it is the
default, and the first one `CoScheduler` creates gets it.  On all others `Wakeup` does what
`WakeupFromEntry` does (`wakeup_iff`).
-/

namespace CoroutineCpp

open Framework TransitionSystem

namespace Sched

variable {s s' : Sched} {e : ℕ} {tk : CoTaskPtr}

/-! ## The entries -/

/-- Every entry was written by the executor that resumed its task, and every running task was
resumed by the executor it runs on. -/
structure Recorded (s : Sched) : Prop where
  entries : ∀ entry ∈ s.entries, ∃ e, (entry.tk, e) ∈ s.resumes ∧ entry.id = (s.executors e).id
  cpu : ∀ e, (s.pc e).onCpu = true → ((s.executors e).runningTask, e) ∈ s.resumes

lemma Recorded.congr (h : s.Recorded) (hentries : s'.entries = s.entries)
    (hresumes : s'.resumes = s.resumes) (hid : ∀ e, (s'.executors e).id = (s.executors e).id)
    (hcpu : ∀ e, (s'.pc e).onCpu = true →
      (s.pc e).onCpu = true ∧ (s'.executors e).runningTask = (s.executors e).runningTask) :
    s'.Recorded where
  entries := by simpa only [hentries, hresumes, hid] using h.entries
  cpu := by
    intro e he
    obtain ⟨he, hrun⟩ := hcpu e he
    rw [hresumes, hrun]
    exact h.cpu e he

/-- A step in which executor `e` changes hands: it calls `Resume` on `resumed`, which runs then,
or its thread leaves the CPU. -/
lemma Recorded.update {ex' : CoExecutor} {pc' : ProcessPc} {resumed : List (CoTaskPtr × ℕ)}
    (h : s.Recorded) (hentries : s'.entries = s.entries)
    (hresumes : s'.resumes = s.resumes ++ resumed)
    (hex : s'.executors = Function.update s.executors e ex') (hid : ex'.id = (s.executors e).id)
    (hpc : s'.pc = Function.update s.pc e pc')
    (hcpu : pc'.onCpu = true → (ex'.runningTask, e) ∈ resumed) : s'.Recorded where
  entries := by
    intro entry hentry
    obtain ⟨e', hmem, hid'⟩ := h.entries entry (hentries ▸ hentry)
    refine ⟨e', by simp [hresumes, hmem], ?_⟩
    rw [hid', hex, update_view CoExecutor.id hid e']
  cpu := by
    intro e' he'
    rw [hpc] at he'
    rw [hresumes, hex]
    by_cases heq : e' = e
    · subst heq
      have hmem := hcpu (by simpa using he')
      simpa using .inr hmem
    · have hmem := h.cpu e' (by simpa [heq] using he')
      simpa [heq] using .inl hmem

lemma Effect.recorded (h : Effect s s') (hr : s.Recorded) : s'.Recorded := by
  cases h with
  | quiet h =>
    refine hr.congr h.entries h.resumes h.id fun e he => ⟨?_, h.runningTask e⟩
    rcases h.pc e with heq | ⟨-, -, hoff⟩
    · exact heq ▸ he
    · simp [hoff] at he
  | submit =>
    refine hr.congr rfl rfl ?_ fun e he => ⟨he, ?_⟩
    · apply update_view CoExecutor.id; rfl
    · apply update_view CoExecutor.runningTask; rfl
  | pass h =>
    refine hr.congr rfl rfl (fun e => ?_) fun e he => ⟨he, ?_⟩ <;> · dsimp only; rw [h.frame e]
  | @start e tk ex' pc' he hpc hpc' hq hex hfin hrun hco =>
    exact hr.update rfl rfl rfl hex.id rfl fun _ => by simp [hrun]
  | @resume e tk ex' pc' he hpc hpc' hq hex hfin hrun hst =>
    exact hr.update rfl rfl rfl hex.id rfl fun _ => by simp [hrun]
  | inert he hpc hpc' hq hex =>
    exact hr.update rfl rfl rfl hex.id rfl fun hon => by simp [hpc'] at hon
  | @hold e pc' he hpc hpc' =>
    have hcpu := hr.cpu e (ProcessPc.onCpu_of_resumed hpc)
    have hid : ∀ e', (Function.update s.executors e { s.executors e with
        waitingQueue := (s.executors e).waitingQueue ++ [(s.executors e).runningTask] } e').id =
        (s.executors e').id := by apply update_view CoExecutor.id; rfl
    refine ⟨fun entry hentry => ?_, fun e' he' => ?_⟩
    · rcases List.mem_append.mp hentry with hentry | hentry
      · obtain ⟨e', hmem, hid'⟩ := hr.entries entry hentry
        exact ⟨e', hmem, hid'.trans (hid e').symm⟩
      · obtain rfl := List.mem_singleton.mp hentry
        exact ⟨e, hcpu, (hid e).symm⟩
    · by_cases heq : e' = e
      · subst heq
        simpa using hcpu
      · simpa [heq] using hr.cpu e' (by simpa [heq] using he')
  | leave he hpc hpc' hex =>
    have hresumes : s.resumes = s.resumes ++ [] := (List.append_nil _).symm
    refine hr.update rfl hresumes rfl hex.id rfl fun hon => ?_
    simp [hpc'] at hon
  | wake | wakeExpired =>
    refine hr.congr rfl rfl ?_ fun e he => ⟨he, ?_⟩
    · apply update_view CoExecutor.id; rfl
    · apply update_view CoExecutor.runningTask; rfl

lemma WakerEffect.recorded (h : WakerEffect s s') (hr : s.Recorded) : s'.Recorded := by
  cases h with
  | push | pop =>
    refine hr.congr rfl rfl ?_ fun e he => ⟨he, ?_⟩
    · apply update_view CoExecutor.id; rfl
    · apply update_view CoExecutor.runningTask; rfl

lemma reachable_recorded (h : schedSystem.ReachableUnder Fresh s) : s.Affine ∧ s.Recorded := by
  refine effect_invariant_of_waker (fun _ _ hG => hG) ?_ (fun _ _ _ hr h => h.recorded hr)
    (fun _ _ _ hr h => h.recorded hr) h
  rintro s ⟨n, id, rfl⟩
  constructor <;> simp [ProcessPc.onCpu]

/-! ## Waking -/

/-- Task `tk` moves from the waiting to the awoken queue of executor `e`, and nothing else
happens. -/
def awaken (s : Sched) (e : ℕ) (tk : CoTaskPtr) : Sched :=
  { s.setExecutor e { s.executors e with
      waitingQueue := (s.executors e).waitingQueue.erase tk
      awokenQueue := (s.executors e).awokenQueue ++ [tk] } with
    wakes := s.wakes ++ [tk] }

/-- A started task that is not over is kept by a frame on its stack or by the executor it runs
on, whatever the queues hold. -/
lemma Affine.alive_of_started (hs : s.Affine) (hst : (s.tasks tk).StartedOn e)
    (hlive : ¬ ((s.tasks tk).co.status = .finished ∨ (s.tasks tk).co.status = .except))
    (hn : s'.n = s.n) (htasks : s'.tasks = s.tasks)
    (hrun : ∀ e, (s'.executors e).runningTask = (s.executors e).runningTask) :
    s'.alive tk = true := by
  by_contra hdead
  refine hlive (hs.over_of_not_alive hst.co_ne ?_ fun e' he' heq => ?_)
  · rw [← Bool.not_eq_true]
    exact fun href => hdead (alive_of_stackRef (htasks ▸ href))
  · exact hdead (alive_of_runningTask (hn ▸ he') ((hrun e').trans heq))

/-- The member `WakeupFromEntry` finds every live task that waits. -/
lemma wakeupFromEntry_waiting {entry : RecoveryEntry} (hs : s.Affine)
    (htk : entry.tk ∈ (s.executors e).waitingQueue)
    (hlive : ¬ ((s.tasks entry.tk).co.status = .finished ∨
      (s.tasks entry.tk).co.status = .except)) :
    s.wakeupFromEntry e entry = (s.awaken e entry.tk, true) := by
  have hst := hs.waiting_started e _ htk
  have hlock : s.lock entry.tk = entry.tk :=
    if_pos (hs.alive_of_started hst hlive rfl rfl fun _ => rfl)
  -- the removal does not take away the last reference
  set s₁ := s.setExecutor e { s.executors e with
    waitingQueue := (s.executors e).waitingQueue.erase entry.tk } with hs₁
  have hrun : ∀ e', (s₁.executors e').runningTask = (s.executors e').runningTask :=
    hs₁ ▸ update_view CoExecutor.runningTask rfl
  have halive : s₁.alive entry.tk = true := hs.alive_of_started hst hlive rfl rfl hrun
  have hlock₁ : s₁.lock entry.tk = entry.tk := if_pos halive
  simp only [wakeupFromEntry, hlock, if_pos htk, ← hs₁, hlock₁]
  simp [hs₁, awaken, setExecutor, ThreadSafeDeque.pushBack]

/-- **`Wakeup` and `Hold` fit together unless the executor has the id `0`.**  For an entry that
`Hold` wrote and whose live task waits, `WakeupFromEntry` moves the task to the awoken queue, and
`Wakeup` does so exactly when the id of the executor is not `0`. -/
theorem wakeup_iff (h : schedSystem.ReachableUnder Fresh s) {entry : RecoveryEntry}
    (hentry : entry ∈ s.entries) (htk : entry.tk ∈ (s.executors e).waitingQueue)
    (hlive : ¬ ((s.tasks entry.tk).co.status = .finished ∨
      (s.tasks entry.tk).co.status = .except)) :
    s.wakeupFromEntry e entry = (s.awaken e entry.tk, true) ∧
    (s.wakeup entry = some (s.awaken e entry.tk, true) ↔ (s.executors e).id ≠ 0) := by
  obtain ⟨hs, hr⟩ := reachable_recorded h
  have hst := hs.waiting_started e _ htk
  have hmember := wakeupFromEntry_waiting hs htk hlive
  obtain ⟨e', hres, hid⟩ := hr.entries entry hentry
  obtain rfl := (hs.resumed_started _ _ hres).unique hst
  have hlock : s.lock entry.tk = entry.tk :=
    if_pos (hs.alive_of_started hst hlive rfl rfl fun _ => rfl)
  have hnull : entry.tk ≠ nullptr := hs.ne_null_of_co hst.co_ne
  refine ⟨hmember, ?_⟩
  by_cases hzero : (s.executors e').id = 0
  · -- the entry passes for empty, and `Wakeup` returns false
    simp [wakeup, entryValid, hid, hzero]
  · simp [wakeup, entryValid, hid, hzero, hlock, hnull, hst.proc, hmember]

/-- With the id `7`: the held task is woken by both functions. -/
theorem wakeup_iff_of_id_seven :
    ∃ s, schedSystem.ReachableUnder Fresh s ∧ (s.executors 0).waitingQueue = [1] ∧
      s.entries = [{ tk := 1, id := 7 }] ∧
      s.wakeupFromEntry 0 { tk := 1, id := 7 } = (s.awaken 0 1, true) ∧
      s.wakeup { tk := 1, id := 7 } = some (s.awaken 0 1, true) := by
  obtain ⟨s, hs, hp⟩ := exists_reachable_of_runUnder (G := Fresh) (M := schedSystem)
    [.addTask 0 1, .process 0 0, .pick 0 0 0, .hold 0 0]
    (fun s => (s.executors 0).waitingQueue = [1] && s.entries = [{ tk := 1, id := 7 }] &&
      (s.executors 0).id = 7 && (s.tasks 1).co.status = .hold)
    ⟨1, fun _ => 7, rfl⟩ (by decide)
  simp only [Bool.and_eq_true, decide_eq_true_eq] at hp
  obtain ⟨⟨⟨hwait, hentries⟩, hid⟩, hst⟩ := hp
  have hentry : ⟨1, 7⟩ ∈ s.entries := by simp [hentries]
  have hboth := wakeup_iff (e := 0) hs hentry (by simp [hwait]) (by simp [hst])
  exact ⟨s, hs, hwait, hentries, hboth.1, hboth.2.mpr (by simp [hid])⟩

/-- With the default id `0`: a task is held, and `Wakeup` with its entry returns false and leaves
everything as it is. -/
theorem wakeup_default_id :
    ∃ s, schedSystem.ReachableUnder Fresh s ∧ (s.executors 0).id = 0 ∧
      { tk := 1, id := 0 } ∈ s.entries ∧ (s.executors 0).waitingQueue = [1] ∧
      (s.tasks 1).co.status = .hold ∧ s.wakeup { tk := 1, id := 0 } = some (s, false) := by
  obtain ⟨s, hs, hp⟩ := exists_reachable_of_runUnder (G := Fresh) (M := schedSystem)
    [.addTask 0 1, .process 0 0, .pick 0 0 0, .hold 0 0]
    (fun s => (s.executors 0).id = 0 && s.entries = [{ tk := 1, id := 0 }] &&
      (s.executors 0).waitingQueue = [1] && (s.tasks 1).co.status = .hold)
    ⟨1, fun _ => 0, rfl⟩ (by decide)
  simp only [Bool.and_eq_true, decide_eq_true_eq] at hp
  obtain ⟨⟨⟨hid, hentries⟩, hwait⟩, hst⟩ := hp
  exact ⟨s, hs, hid, by simp [hentries], hwait, hst, by simp [wakeup, entryValid]⟩

end Sched

end CoroutineCpp
