import CoroutineCpp.Framework.Accounting
import CoroutineCpp.Model.CoroutineMeta
import Mathlib.Data.List.Nodup
import Mathlib.Algebra.Order.Ring.Int
import Mathlib.Tactic.Zify

/-!
# What the counters of the coroutines say

Whatever the threads do at the same time, `s_co_count` counts the objects behind the increment in
their constructor and before the decrement in their destructor, no id is handed out twice, and what
was allocated is freed once or still the stack of one object (`Accounted`).  A constructor that
fails leaves nothing but the gap in the ids.
-/

namespace CoroutineCpp

open Framework TransitionSystem

namespace CoMeta

variable {s s' : CoMeta} {o o' : CoObject} {i j : ℕ}

/-- The object is in `s_co_count`. -/
def counted (o : CoObject) : Bool := o.stage = .alive || o.stage = .leaving

/-- The books are right. -/
structure Accounted (s : CoMeta) : Prop where
  count : s.coCount = s.objects.countP counted
  blocks : s.allocs = s.deallocs + s.objects.countP (·.co.stack)
  bare : ∀ o ∈ s.objects, o.stage ≠ .alive → o.co.stack = false
  distinct : (s.objects.map (·.id)).Nodup
  known : ∀ o ∈ s.objects, o.id ∈ s.ids
  fresh : s.ids.Nodup
  range : ∀ n ∈ s.ids, 0 ≤ n ∧ n ≤ s.coId
  made : s.coId + 1 = s.ids.length

lemma accounted_init : Accounted {} where
  count := rfl
  blocks := rfl
  bare := by simp
  distinct := .nil
  known := by simp
  fresh := .nil
  range := by simp
  made := rfl

/-! ## One object changes -/

lemma Accounted.set (h : s.Accounted) (ho : s.objects[i]? = some o)
    (hobjects : s'.objects = s.objects.set i o') (hid : o'.id = o.id)
    (hids : s'.ids = s.ids ∧ s'.coId = s.coId)
    (hcount : s'.coCount + (if counted o then 1 else 0) =
      s.coCount + (if counted o' then 1 else 0))
    (hblocks : s'.allocs + s.deallocs + (if o.co.stack then 1 else 0) =
      s.allocs + s'.deallocs + (if o'.co.stack then 1 else 0))
    (hbare : o'.stage ≠ .alive → o'.co.stack = false) : s'.Accounted := by
  have hmem : ∀ x ∈ s'.objects, x ∈ s.objects ∨ x = o' := fun x hx =>
    List.mem_or_eq_of_mem_set (hobjects ▸ hx)
  refine ⟨?_, ?_, fun x hx hstage => ?_, ?_, fun x hx => ?_, hids.1 ▸ h.fresh, ?_, ?_⟩
  · have hset := countP_set counted ho o'
    have hold := h.count
    zify at hset
    rw [hobjects]
    omega
  · have hset := countP_set (·.co.stack) ho o'
    have hold := h.blocks
    rw [hobjects]
    omega
  · rcases hmem x hx with hx | rfl
    · exact h.bare x hx hstage
    · exact hbare hstage
  · have hsame : s.objects.set i o = s.objects := by
      obtain ⟨hi, rfl⟩ := List.getElem?_eq_some_iff.mp ho
      exact List.set_getElem_self hi
    have hmap : (s.objects.map (·.id)).set i o.id = s.objects.map (·.id) := by
      simpa only [List.map_set] using congrArg (List.map (·.id)) hsame
    rw [hobjects, List.map_set, hid, hmap]
    exact h.distinct
  · rw [hids.1]
    rcases hmem x hx with hx | rfl
    · exact h.known x hx
    · exact hid ▸ h.known o (List.mem_of_getElem? ho)
  · rw [hids.1, hids.2]
    exact h.range
  · rw [hids.1, hids.2]
    exact h.made

lemma Accounted.erase (h : s.Accounted) (ho : s.objects[i]? = some o)
    (hobjects : s'.objects = s.objects.eraseIdx i) (hids : s'.ids = s.ids ∧ s'.coId = s.coId)
    (hcount : s'.coCount + (if counted o then 1 else 0) = s.coCount)
    (hblocks : s'.allocs = s.allocs ∧ s'.deallocs = s.deallocs) (hstage : o.stage ≠ .alive) :
    s'.Accounted := by
  have hmem : ∀ x ∈ s'.objects, x ∈ s.objects := fun x hx =>
    List.mem_of_mem_eraseIdx (hobjects ▸ hx)
  have hdistinct := ((perm_cons_eraseIdx ho).map (·.id)).nodup_iff.mp h.distinct
  refine ⟨?_, ?_, fun x hx => h.bare x (hmem x hx), ?_, fun x hx => hids.1 ▸ h.known x (hmem x hx),
    hids.1 ▸ h.fresh, ?_, ?_⟩
  · have herase := countP_eraseIdx counted ho
    have hold := h.count
    zify at herase
    rw [hobjects]
    omega
  · have hstack : o.co.stack = false := h.bare o (List.mem_of_getElem? ho) hstage
    have herase : (s.objects.eraseIdx i).countP (·.co.stack) = s.objects.countP (·.co.stack) := by
      simpa [hstack] using countP_eraseIdx (·.co.stack) ho
    rw [hobjects, hblocks.1, hblocks.2, herase]
    exact h.blocks
  · rw [hobjects]
    exact (List.nodup_cons.mp hdistinct).2
  · rw [hids.1, hids.2]
    exact h.range
  · rw [hids.1, hids.2]
    exact h.made

/-! ## A step -/

lemma Accounted.construct (h : s.Accounted) (o : CoObject) (hid : o.id = s.coId + 1)
    (hstage : o.stage = .numbered) (hstack : o.co.stack = false) :
    Accounted { s with
      coId := s.coId + 1, objects := o :: s.objects, ids := (s.coId + 1) :: s.ids } := by
  have hnew : s.coId + 1 ∉ s.ids := fun hmem => by
    have hle := (h.range _ hmem).2
    omega
  have hmade := h.made
  refine ⟨?_, ?_, ?_, ?_, ?_, List.nodup_cons.mpr ⟨hnew, h.fresh⟩, ?_, ?_⟩
  · simpa [counted, hstage] using h.count
  · simpa [hstack] using h.blocks
  · exact List.forall_mem_cons.mpr ⟨fun _ => hstack, h.bare⟩
  · refine List.nodup_cons.mpr ⟨fun hmem => ?_, h.distinct⟩
    obtain ⟨x, hx, hxid⟩ := List.mem_map.mp hmem
    have hxid' : x.id = s.coId + 1 := hxid.trans hid
    exact hnew (hxid' ▸ h.known x hx)
  · refine List.forall_mem_cons.mpr ⟨hid ▸ List.mem_cons_self, fun x hx => ?_⟩
    exact List.mem_cons_of_mem _ (h.known x hx)
  · refine List.forall_mem_cons.mpr ⟨⟨by omega, le_refl _⟩, fun n hn => ?_⟩
    obtain ⟨hn₀, hle⟩ := h.range n hn
    exact ⟨hn₀, hle.trans (Int.le_add_one (le_refl _))⟩
  · simp [hmade]

lemma Accounted.abort (h : s.Accounted) : Accounted { s with aborted := true } :=
  ⟨h.count, h.blocks, h.bare, h.distinct, h.known, h.fresh, h.range, h.made⟩

/-- The stack is there when the coroutine is switched in. -/
lemma stack_of_switched {p : ThreadId} {co : Coroutine} (hmaster : o.co.isMaster = false)
    (hco : o.co.resume p = .switched co) : co.stack = true := by
  obtain ⟨-, rfl⟩ := Coroutine.resume_eq_switched hco
  unfold Coroutine.prepare
  cases hstack : o.co.stack <;> simp [hmaster, hstack]

lemma Accounted.resume {p : ThreadId} (h : s.Accounted) (ho : s.objects[i]? = some o)
    (hstage : o.stage = .alive) (hmaster : o.co.isMaster = false) :
    (s.resume i p o).Accounted := by
  unfold CoMeta.resume
  split
  next => exact h
  next => exact h.abort
  next co hco =>
    have hstack := stack_of_switched hmaster hco
    refine h.set ho rfl rfl ⟨rfl, rfl⟩ rfl ?_ fun hne => absurd hstage hne
    simp only [hstack, if_true]
    split <;> omega

lemma Accounted.destroy (h : s.Accounted) (ho : s.objects[i]? = some o)
    (hstage : o.stage = .alive) : (s.destroy i o).Accounted := by
  unfold CoMeta.destroy
  split
  next hstack =>
    split
    · refine h.set ho rfl rfl ⟨rfl, rfl⟩ ?_ ?_ fun _ => rfl
      · simp [counted, hstage]
      · simp only [hstack, if_true]
        simp
        omega
    · exact h.abort
  next hstack =>
    refine h.set ho rfl rfl ⟨rfl, rfl⟩ ?_ rfl fun _ => Bool.eq_false_iff.mpr hstack
    simp [counted, hstage]

lemma stack_leave (how : CoLeave) (co : Coroutine) : (leave how co).stack = co.stack := by
  cases how <;> rfl

lemma Accounted.objectStep {a : MetaAct} (h : s.Accounted) (ho : s.objects[i]? = some o)
    (hs : s.objectStep i o a = some s') : s'.Accounted := by
  have hbare := h.bare o (List.mem_of_getElem? ho)
  cases a with
  | construct => cases hs
  | getcontext _ ok =>
    obtain ⟨hstage, hs⟩ := Option.ite_none_right_eq_some.mp hs
    split at hs
    · obtain rfl := Option.some.inj hs
      refine h.set ho rfl rfl ⟨rfl, rfl⟩ ?_ rfl fun _ => hbare (by simp [hstage])
      simp [counted, hstage]
    · obtain rfl := Option.some.inj hs
      refine h.erase ho rfl ⟨rfl, rfl⟩ ?_ ⟨rfl, rfl⟩ (by simp [hstage])
      simp [counted, hstage]
  | count =>
    obtain ⟨hstage, hs⟩ := Option.ite_none_right_eq_some.mp hs
    obtain rfl := Option.some.inj hs
    refine h.set ho rfl rfl ⟨rfl, rfl⟩ ?_ rfl fun hne => absurd rfl hne
    simp [counted, hstage]
  | resume _ p =>
    obtain ⟨⟨hstage, hmaster⟩, hs⟩ := Option.ite_none_right_eq_some.mp hs
    exact Option.some.inj hs ▸ h.resume ho hstage hmaster
  | leave _ how =>
    obtain ⟨⟨hstage, -⟩, hs⟩ := Option.ite_none_right_eq_some.mp hs
    obtain rfl := Option.some.inj hs
    refine h.set ho rfl rfl ⟨rfl, rfl⟩ rfl ?_ fun hne => absurd hstage hne
    rw [stack_leave]
  | destroy =>
    obtain ⟨hstage, hs⟩ := Option.ite_none_right_eq_some.mp hs
    exact Option.some.inj hs ▸ h.destroy ho hstage
  | uncount =>
    obtain ⟨hstage, hs⟩ := Option.ite_none_right_eq_some.mp hs
    obtain rfl := Option.some.inj hs
    refine h.erase ho rfl ⟨rfl, rfl⟩ ?_ ⟨rfl, rfl⟩ (by simp [hstage])
    simp [counted, hstage]

lemma reachable_accounted (h : metaSystem.Reachable s) : s.Accounted := by
  refine h.invariant (fun s hs => hs ▸ accounted_init) fun s a s' _ hI _ hs => ?_
  obtain ⟨-, hs⟩ := Option.ite_none_left_eq_some.mp hs
  cases a with
  | construct isMaster =>
    obtain rfl := Option.some.inj hs
    exact hI.construct _ rfl rfl rfl
  | _ =>
    obtain ⟨o, ho, hs⟩ := Option.bind_eq_some_iff.mp hs
    exact hI.objectStep ho hs

/-! ## The accounts -/

/-- **The books of the coroutines are right**, in every run of any threads: `GetCoCount` is the
number of objects between the two ends of its range, so all of them when no constructor and no
destructor is at work; each stack that was allocated is freed or that of one object; and no id is
ever handed out twice. -/
theorem coroutines_accounted (h : metaSystem.Reachable s) :
    (s.getCoCount = s.objects.countP counted ∧
      ((∀ o ∈ s.objects, o.stage = .alive) → s.getCoCount = s.objects.length)) ∧
      s.allocs = s.deallocs + s.objects.countP (·.co.stack) ∧
      s.ids.Nodup ∧ s.coId + 1 = s.ids.length ∧ (s.objects.map (·.id)).Nodup := by
  have hI := reachable_accounted h
  refine ⟨⟨hI.count, fun halive => ?_⟩, hI.blocks, hI.fresh, hI.made, hI.distinct⟩
  have hall : s.objects.countP counted = s.objects.length :=
    List.countP_eq_length.mpr fun o ho => by simp [counted, halive o ho]
  rw [getCoCount, hI.count, hall]

/-- One object was destroyed, one gave up, one is in its constructor, and the id `2` is lost. -/
theorem coroutines_accounted_four :
    ∃ s, metaSystem.Reachable s ∧ s.getCoCount = 1 ∧ s.allocs = s.deallocs + 1 ∧
      s.ids.Nodup ∧ s.coId + 1 = s.ids.length := by
  obtain ⟨s, h, hp⟩ := exists_reachable_of_runUnder (G := fun _ _ => True) (M := metaSystem)
    [.construct false, .construct false, .getcontext 0 true, .getcontext 1 true, .count 1, .count 0,
      .resume 0 7, .resume 1 8, .leave 1 .returned, .leave 0 .giveUp, .construct false,
      .getcontext 0 false, .destroy 1, .construct true, .uncount 2]
    (fun s => s.objects.countP counted = 1 && s.objects.countP (·.co.stack) = 1) rfl (by decide)
  simp only [Bool.and_eq_true, decide_eq_true_eq] at hp
  obtain ⟨hcounted, hstacks⟩ := hp
  obtain ⟨⟨hcount, -⟩, hblocks, hfresh, hmade, -⟩ := coroutines_accounted h
  refine ⟨s, h, ?_, hstacks ▸ hblocks, hfresh, hmade⟩
  rw [hcount, hcounted]
  rfl

end CoMeta

end CoroutineCpp
