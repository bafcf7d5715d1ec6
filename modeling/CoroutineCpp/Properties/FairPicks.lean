import CoroutineCpp.Framework.Alternation
import CoroutineCpp.Model.ReadyQueues

/-!
# The two ready queues are served in turns

`Process` serves its two queues as a `Framework.Server`: each step of `readySystem` is a turn of
one (`step_turn`), `last_retrieve_from_awoken` being the memory of the last pick.  The three laws
of `Framework/Alternation.lean` then hold of the picks (`picks_fair`), in the runs with one call of
`Process`.
-/

namespace CoroutineCpp

open Framework TransitionSystem Server

namespace ReadyState

variable {s s' : ReadyState} {a : ReadyAct} {ex : CoExecutor} {last : Bool}
  {G : ReadyState → ReadyAct → Prop}

/-! ## Each step is a turn -/

/-- The two queues as those of a server. -/
def server (s : ReadyState) : Server CoTaskPtr where
  queue := s.ex.readyQueue
  last := s.last
  picks := s.picks
  arrived := s.arrived
  removed b := if b then [] else s.stolen

/-- What a step does to the two queues. -/
def turn (s : ReadyState) : ReadyAct → Turn CoTaskPtr
  | .addTask tk => .arrive false (if tk = nullptr then [] else [tk])
  | .addTasks tks => .arrive false tks
  | .awaken tks => .arrive true tks
  | .giveUpTasks n => .cut false (s.ex.giveUpTasks s.stolen n).1.runnableQueue.length
  | .pick => .pick
  | .process => .restart false
  | .rest _ => .arrive false []

/-- A change of one queue. -/
lemma update_readyQueue {ex ex' : CoExecutor} {b : Bool} {q : List CoTaskPtr}
    (hb : ex'.readyQueue b = q) (hnot : ex'.readyQueue (!b) = ex.readyQueue (!b)) :
    Function.update ex.readyQueue b q = ex'.readyQueue := by
  funext b'
  by_cases h : b' = b
  · subst h
    rw [hb, Function.update_self]
  · obtain rfl : b' = !b := by cases b <;> cases b' <;> simp_all
    rw [hnot, Function.update_of_ne h]

/-- The branches of `Process` choose the queue that was not served last, if it has something. -/
lemma choose_server (s : ReadyState) : s.server.choose = s.ex.chooseQueue s.last := by
  unfold Server.choose CoExecutor.chooseQueue server
  cases s.last <;> cases hr : s.ex.runnableQueue <;> cases ha : s.ex.awokenQueue <;>
    simp [hr, ha]

lemma step_pick_turn (h : s.step .pick = some s') : s.server.step .pick = some s'.server := by
  simp only [step] at h
  obtain ⟨-, h⟩ := Option.ite_none_left_eq_some.mp h
  cases hchoose : s.ex.chooseQueue s.last with
  | none => simp [hchoose] at h
  | some b =>
    simp only [hchoose] at h
    simp only [Server.step, choose_server, hchoose, Option.bind_some]
    rcases CoExecutor.assignRunnableTask_of_chooseQueue hchoose with
      ⟨rfl, tk, rest, hq, hassign⟩ | ⟨rfl, tk, rest, hq, hassign⟩ <;>
    · simp only [hassign, Option.map_some, Option.some.injEq] at h
      subst h
      simp only [server, CoExecutor.readyQueue_true, CoExecutor.readyQueue_false, hq,
        List.head?_cons, List.tail_cons, Option.map_some, Option.some.injEq, Server.mk.injEq,
        and_true]
      apply update_readyQueue <;> rfl

/-- **Each step is a turn** of the server. -/
lemma step_turn (h : s.step a = some s') : s.server.step (s.turn a) = some s'.server := by
  cases a with
  | addTask tk =>
    obtain rfl := Option.some.inj h
    simp only [turn, Server.step, server, CoExecutor.addTask_fst, Option.some.injEq,
      Server.mk.injEq, and_true]
    apply update_readyQueue <;> rfl
  | addTasks tks =>
    obtain rfl := Option.some.inj h
    simp only [turn, Server.step, server, CoExecutor.addTasks_fst, Option.some.injEq,
      Server.mk.injEq, and_true]
    apply update_readyQueue <;> rfl
  | awaken tks =>
    obtain rfl := Option.some.inj h
    simp only [turn, Server.step, server, CoExecutor.foldl_pushBack, Option.some.injEq,
      Server.mk.injEq, and_true]
    apply update_readyQueue <;> rfl
  | giveUpTasks n =>
    obtain rfl := Option.some.inj h
    obtain ⟨kept, block, hq, hgive, -⟩ := CoExecutor.giveUpTasks_split s.stolen n s.ex
    simp only [turn, Server.step, server, hgive, CoExecutor.readyQueue_false, hq, List.take_left,
      List.drop_left, Option.some.injEq, Server.mk.injEq, true_and]
    constructor
    · apply update_readyQueue <;> rfl
    · funext b
      cases b <;> simp
  | pick => exact step_pick_turn h
  | process =>
    obtain rfl := Option.some.inj h
    rfl
  | rest ex' =>
    obtain ⟨hsame, h⟩ := Option.ite_none_right_eq_some.mp h
    obtain rfl := Option.some.inj h
    have hq : ex'.readyQueue = s.ex.readyQueue := funext hsame
    simp [turn, Server.step, server, hq]

lemma server_reachable {G' : Server CoTaskPtr → Turn CoTaskPtr → Prop}
    (hG : ∀ s a, G s a → G' s.server (s.turn a)) (h : (readySystem ex last).ReachableUnder G s) :
    (alternation ex.readyQueue last).ReachableUnder G' s.server := by
  refine h.simulate server ?_ fun s a s' hGa hstep => ⟨s.turn a, hG s a hGa, step_turn hstep⟩
  rintro s rfl
  simp [alternation, server]

/-! ## The laws of the picks -/

/-- The picks of one call of `Process`. -/
def OneCall (_ : ReadyState) (a : ReadyAct) : Prop := a.isProcess = false

/-- One call of `Process`, and the queue is not empty when it picks. -/
def NotEmpty (b : Bool) (s : ReadyState) (a : ReadyAct) : Prop :=
  a.isProcess = false ∧ (a = .pick → s.ex.readyQueue b ≠ [])

/-- One call of `Process`, and `GiveUpTasks` leaves the task that had `k` tasks ahead of it at
first, unless it has been picked by then. -/
def NotStolen (k : ℕ) (s : ReadyState) (a : ReadyAct) : Prop :=
  a.isProcess = false ∧ ∀ n, a = .giveUpTasks n →
    k < (takenFrom false s.picks).length + (s.ex.giveUpTasks [] n).1.runnableQueue.length

instance (s : ReadyState) (a : ReadyAct) : Decidable (OneCall s a) :=
  inferInstanceAs (Decidable (_ = _))

/-- Tasks are picked from each queue in the order in which they came, also over several calls of
`Process`. -/
lemma server_inOrder (h : (readySystem ex last).ReachableUnder G s) (b : Bool) :
    InOrder ex.readyQueue b s.server :=
  fifo (server_reachable (fun _ _ _ => trivial) h : (alternation ex.readyQueue last).Reachable _) b

lemma stolen_eq_nil (hG : ∀ s a, G s a → a.isGiveUp = false)
    (h : (readySystem ex last).ReachableUnder G s) : s.stolen = [] := by
  refine ReachableUnder.invariant (I := fun s => s.stolen = []) ?_
    (fun s a s' _ hs hGa hstep => ?_) h
  · rintro s rfl
    rfl
  have hkeep := hG s a hGa
  cases a with
  | giveUpTasks => cases hkeep
  | addTask | addTasks | awaken | process =>
    obtain rfl := Option.some.inj hstep
    exact hs
  | pick =>
    obtain ⟨-, hstep⟩ := Option.ite_none_left_eq_some.mp hstep
    split at hstep
    · cases hstep
    · obtain ⟨r, -, rfl⟩ := Option.map_eq_some_iff.mp hstep
      exact hs
  | rest =>
    obtain ⟨-, hstep⟩ := Option.ite_none_right_eq_some.mp hstep
    obtain rfl := Option.some.inj hstep
    exact hs

/-- A task with `k` tasks ahead of it in the awoken queue is among the next `2 * k + 2` picks. -/
lemma awoken_picked_within {ahead behind : List CoTaskPtr} {tk : CoTaskPtr}
    (hG : ∀ s a, G s a → a.isProcess = false) (hq : ex.awokenQueue = ahead ++ tk :: behind)
    (h : (readySystem ex last).ReachableUnder G s) (hlen : 2 * ahead.length + 2 ≤ s.picks.length) :
    ahead ++ [tk] <+: takenFrom true (s.picks.take (2 * ahead.length + 2)) := by
  refine picked_within (G := fun s a => a.isRestart = false ∧ Spares true ahead.length s a)
    (fun _ _ h => h) hq (server_reachable ?_ h) hlen
  intro s a hGa
  have hcall := hG s a hGa
  cases a with
  | giveUpTasks n => exact ⟨rfl, fun h => by cases h⟩
  | process => cases hcall
  | _ => exact ⟨rfl, trivial⟩

/-- **Fair alternation of the ready queues.** For any executor, any value of
`last_retrieve_from_awoken` (so also from any point of a call of `Process` on), and whatever arrives
at the back of the two queues and is stolen from the back of the runnable queue between the picks:

* tasks are picked from each queue in the order in which they came, those of the runnable queue
  that are not picked and not in it being the stolen ones;
* while a queue is not empty, the other one gets at most one pick more;
* a task with `k` tasks ahead of it in the awoken queue is picked, after these, within the next
  `2 * k + 2` picks, and so is one in the runnable queue that is not stolen before. -/
theorem picks_fair (ex : CoExecutor) (last : Bool) :
    (∀ s, (readySystem ex last).ReachableUnder OneCall s →
      takenFrom true s.picks ++ s.ex.awokenQueue = ex.awokenQueue ++ s.arrived true ∧
      (takenFrom false s.picks ++ s.ex.runnableQueue).Sublist
        (ex.runnableQueue ++ s.arrived false) ∧
      (takenFrom false s.picks ++ s.ex.runnableQueue ++ s.stolen).Perm
        (ex.runnableQueue ++ s.arrived false)) ∧
    (∀ b s, (readySystem ex last).ReachableUnder (NotEmpty b) s →
      (takenFrom (!b) s.picks).length ≤ (takenFrom b s.picks).length + 1) ∧
    (∀ ahead tk behind s, ex.awokenQueue = ahead ++ tk :: behind →
      (readySystem ex last).ReachableUnder OneCall s → 2 * ahead.length + 2 ≤ s.picks.length →
      ahead ++ [tk] <+: takenFrom true (s.picks.take (2 * ahead.length + 2))) ∧
    (∀ ahead tk behind s, ex.runnableQueue = ahead ++ tk :: behind →
      (readySystem ex last).ReachableUnder (NotStolen ahead.length) s →
      2 * ahead.length + 2 ≤ s.picks.length →
      ahead ++ [tk] <+: takenFrom false (s.picks.take (2 * ahead.length + 2))) := by
  refine ⟨fun s h => ?_, fun b s h => ?_,
    fun ahead tk behind s hq h hlen => awoken_picked_within (fun _ _ h => h) hq h hlen,
    fun ahead tk behind s hq h hlen => ?_⟩
  · have hawoken := server_inOrder h true
    have hrunnable := server_inOrder h false
    exact ⟨hawoken.eq_of_removed rfl, hrunnable.sublist, hrunnable.perm⟩
  · refine lead_le (G := fun s a => a.isRestart = false ∧ (a = .pick → s.queue b ≠ []))
      (fun _ _ h => h) (server_reachable ?_ h)
    rintro s a ⟨hcall, hne⟩
    cases a with
    | pick => exact ⟨rfl, fun _ => hne rfl⟩
    | process => cases hcall
    | _ => exact ⟨rfl, fun h => by cases h⟩
  · refine picked_within (G := fun s a => a.isRestart = false ∧ Spares false ahead.length s a)
      (fun _ _ h => h) hq (server_reachable ?_ h) hlen
    rintro s a ⟨hcall, hkeep⟩
    cases a with
    | giveUpTasks n => exact ⟨rfl, fun _ => hkeep n rfl⟩
    | process => cases hcall
    | _ => exact ⟨rfl, trivial⟩

/-- Two awoken and three runnable tasks; one task arrives and the last one is stolen on the way. -/
theorem picks_fair_stolen :
    ∃ s, (readySystem { awokenQueue := [1, 2], runnableQueue := [3, 4, 5] } false).ReachableUnder
        OneCall s ∧
      s.picks = [(true, 1), (false, 3), (true, 2), (false, 4)] ∧ s.stolen = [5] ∧
      [1] ++ [2] <+: takenFrom true (s.picks.take 4) := by
  obtain ⟨s, hs, hp⟩ := exists_reachable_of_runUnder (G := OneCall)
    (M := readySystem { awokenQueue := [1, 2], runnableQueue := [3, 4, 5] } false)
    [.pick, .pick, .giveUpTasks 1, .awaken [6], .pick, .pick]
    (fun s => s.picks = [(true, 1), (false, 3), (true, 2), (false, 4)] && s.stolen = [5]) rfl
    (by decide)
  simp only [Bool.and_eq_true, decide_eq_true_eq] at hp
  obtain ⟨hpicks, hstolen⟩ := hp
  refine ⟨s, hs, hpicks, hstolen, ?_⟩
  exact (picks_fair _ _).2.2.1 [1] 2 [] s rfl hs (by simp [hpicks])

end ReadyState

end CoroutineCpp
