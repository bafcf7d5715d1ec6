import CoroutineCpp.Model.Thread
import Mathlib.Data.List.Nodup
import Mathlib.Logic.Equiv.Basic

/-!
# Who releases a pthread handle

`Tracked` holds in every run: an object whose `m_thread` is set and whose `m_joinable` is set owns
a handle that nobody has released, an object with `m_thread` set and `m_joinable` cleared still
names a handle that `Detach` has released, and a handle that no object names has been released.
The second kind is the defect: unlike `Join`, `Detach` does not clear `m_thread`, so the next
`Join`, `Detach` or destructor releases the handle again.  `released_once_iff` says that this is
the only way to release a handle twice.
-/

namespace CoroutineCpp

open Framework TransitionSystem

namespace Threads

/-! ## What an operation does -/

/-- The cases of an operation.  `release` is a `Join`, `Detach` or destruction of an object that
names a handle, `null` any operation on an object that names none. -/
inductive Effect (s : Threads) : ThreadAct → Threads → Prop
  | create {x : ℕ} {name : String} {tid : ℤ} (hx : s.objects x = none) :
      Effect s (.construct x name tid)
        { s.setObject x (some (.construct name (s.created + 1) tid)) with
          created := s.created + 1 }
  | release {a : ThreadAct} {x : ℕ} {t : Thread} {t' : Option Thread} {c : PthreadCall}
      (ha : a = .join x ∧ t' = some { t with joinable := false, thread := 0 } ∨
        a = .detach x ∧ t' = some { t with joinable := false } ∨ a = .destroy x ∧ t' = none)
      (hx : s.objects x = some t) (ht : t.thread ≠ 0) (hc : c.handle = t.thread) :
      Effect s a { s.setObject x t' with calls := s.calls ++ [c] }
  | null {a : ThreadAct} {x : ℕ} {o : Option Thread}
      (ha : a = .constructDefault x ∨ a = .join x ∨ a = .detach x ∨ a = .destroy x)
      (hx : ∀ t, s.objects x = some t → t.thread = 0) (ho : ∀ t, o = some t → t.thread = 0) :
      Effect s a (s.setObject x o)
  | swap {x y : ℕ} {t t' : Thread} (hx : s.objects x = some t) (hy : s.objects y = some t') :
      Effect s (.swap x y) ((s.setObject x (some t')).setObject y (some t))

variable {s s' : Threads} {a : ThreadAct}

/-- **Every operation is an effect.** -/
lemma step_effect (h : s.step a = some s') : Effect s a s' := by
  cases a with
  | constructDefault x =>
    simp only [step] at h
    split at h <;> cases h
    next hx => exact .null (.inl rfl) (by simp [hx]) (by simp)
  | construct x name tid =>
    simp only [step] at h
    split at h <;> cases h
    next hx => exact .create hx
  | join x =>
    simp only [step] at h
    split at h <;> cases h
    next t hx =>
      by_cases ht : t.thread = 0
      · simpa [Thread.join, ht, setObject] using
          Effect.null (o := some t) (.inr (.inl rfl)) (by simp [hx, ht]) (by simp [ht])
      · simpa [Thread.join, ht] using .release (c := .join t.thread) (.inl ⟨rfl, rfl⟩) hx ht rfl
  | detach x =>
    simp only [step] at h
    split at h <;> cases h
    next t hx =>
      by_cases ht : t.thread = 0
      · simpa [Thread.detach, ht, setObject] using
          Effect.null (o := some t) (.inr (.inr (.inl rfl))) (by simp [hx, ht]) (by simp [ht])
      · simpa [Thread.detach, ht] using
          .release (c := .detach t.thread) (.inr (.inl ⟨rfl, rfl⟩)) hx ht rfl
  | swap x y =>
    simp only [step] at h
    split at h <;> cases h
    next t t' hx hy => exact .swap hx hy
  | destroy x =>
    simp only [step] at h
    split at h <;> cases h
    next t hx =>
      by_cases ht : t.thread = 0
      · simpa [Thread.destroy, ht, setObject] using
          Effect.null (o := none) (.inr (.inr (.inr rfl))) (by simp [hx, ht]) (by simp)
      · simpa [Thread.destroy, ht] using
          .release (c := .detach t.thread) (.inr (.inr ⟨rfl, rfl⟩)) hx ht rfl

/-! ## The handles of a run -/

/-- What `m_thread` and `m_joinable` of the objects say about the handles. -/
structure Tracked (s : Threads) : Prop where
  bound : ∀ x t, s.objects x = some t → t.thread ≤ s.created
  /-- no two objects name one handle -/
  unique : ∀ x y t t', s.objects x = some t → s.objects y = some t' → t.thread ≠ 0 →
    t.thread = t'.thread → x = y
  /-- the handles an object names have been released exactly where it is not joinable -/
  stale : ∀ x t, s.objects x = some t → t.thread ≠ 0 →
    (t.joinable = false ↔ t.thread ∈ s.released)
  released : ∀ h ∈ s.released, h ≠ 0 ∧ h ≤ s.created
  /-- a handle that no object names has been released -/
  gone : ∀ h, h ≠ 0 → h ≤ s.created →
    h ∈ s.released ∨ ∃ x t, s.objects x = some t ∧ t.thread = h

/-- An object after one address has been written: the new one, or an old one elsewhere. -/
lemma objects_setObject {x y : ℕ} {t : Thread} {o : Option Thread}
    (hy : (s.setObject x o).objects y = some t) :
    y = x ∧ o = some t ∨ y ≠ x ∧ s.objects y = some t := by
  by_cases hyx : y = x
  · subst hyx
    exact .inl ⟨rfl, by simpa [setObject] using hy⟩
  · exact .inr ⟨hyx, by simpa [setObject, hyx] using hy⟩

/-- An object without handle appears, changes or disappears. -/
lemma Tracked.null {x : ℕ} {t' : Option Thread} (h : s.Tracked)
    (hx : ∀ t, s.objects x = some t → t.thread = 0) (ht' : ∀ t, t' = some t → t.thread = 0) :
    (s.setObject x t').Tracked := by
  -- an object that names a handle is not the one at `x`
  have hkeep : ∀ y t, (s.setObject x t').objects y = some t → t.thread ≠ 0 →
      s.objects y = some t := by
    intro y t hy ht
    rcases objects_setObject hy with ⟨-, ho⟩ | ⟨-, hold⟩
    · exact absurd (ht' t ho) ht
    · exact hold
  refine ⟨fun y t hy => ?_, fun y z t t₁ hy hz ht heq => ?_, fun y t hy ht => ?_, h.released,
    fun hd hne hle => ?_⟩
  · by_cases ht : t.thread = 0
    · rw [ht]
      exact Nat.zero_le _
    · exact h.bound y t (hkeep y t hy ht)
  · exact h.unique y z t t₁ (hkeep y t hy ht) (hkeep z t₁ hz (heq ▸ ht)) ht heq
  · exact h.stale y t (hkeep y t hy ht) ht
  · refine (h.gone hd hne hle).imp_right ?_
    rintro ⟨y, t, hy, rfl⟩
    have hyx : y ≠ x := by
      rintro rfl
      exact hne (hx t hy)
    exact ⟨y, t, by simpa [setObject, hyx] using hy, rfl⟩

/-- The object at `x` releases its handle and, if it still names it, is not joinable. -/
lemma Tracked.release {x : ℕ} {t : Thread} {t' : Option Thread} {c : PthreadCall} (h : s.Tracked)
    (hx : s.objects x = some t) (ht : t.thread ≠ 0) (hc : c.handle = t.thread)
    (ht' : ∀ t₁, t' = some t₁ → t₁.thread = 0 ∨ t₁.thread = t.thread ∧ t₁.joinable = false) :
    Threads.Tracked { s.setObject x t' with calls := s.calls ++ [c] } := by
  have hrel : Threads.released { s.setObject x t' with calls := s.calls ++ [c] } =
      s.released ++ [t.thread] := by simp [Threads.released, hc]
  -- an object that names a handle is the one at `x`, or is as before
  have hcases : ∀ y t₁, (s.setObject x t').objects y = some t₁ → t₁.thread ≠ 0 →
      y = x ∧ t₁.thread = t.thread ∧ t₁.joinable = false ∨ y ≠ x ∧ s.objects y = some t₁ := by
    intro y t₁ hy ht₁
    exact (objects_setObject hy).imp_left fun ⟨hyx, ho⟩ => ⟨hyx, (ht' t₁ ho).resolve_left ht₁⟩
  have hbound := h.bound x t hx
  refine ⟨fun y t₁ hy => ?_, fun y z t₁ t₂ hy hz ht₁ heq => ?_, fun y t₁ hy ht₁ => ?_,
    fun hd hmem => ?_, fun hd hne hle => ?_⟩
  · by_cases ht₁ : t₁.thread = 0
    · rw [ht₁]
      exact Nat.zero_le _
    · rcases hcases y t₁ hy ht₁ with ⟨-, hth, -⟩ | ⟨-, hold⟩
      · rw [hth]
        exact hbound
      · exact h.bound y t₁ hold
  · rcases hcases y t₁ hy ht₁ with ⟨rfl, hth, -⟩ | ⟨-, hold⟩ <;>
      rcases hcases z t₂ hz (heq ▸ ht₁) with ⟨rfl, hth', -⟩ | ⟨-, hold'⟩
    · rfl
    · exact h.unique _ _ _ _ hx hold' ht (hth.symm.trans heq)
    · exact h.unique _ _ _ _ hold hx ht₁ (heq.trans hth')
    · exact h.unique _ _ _ _ hold hold' ht₁ heq
  · rw [hrel, List.mem_append, List.mem_singleton]
    rcases hcases y t₁ hy ht₁ with ⟨-, hth, hjoin⟩ | ⟨hyx, hold⟩
    · simp [hth, hjoin]
    · have hne : t₁.thread ≠ t.thread := fun heq => hyx (h.unique _ _ _ _ hold hx ht₁ heq)
      simpa [hne] using h.stale y t₁ hold ht₁
  · rw [hrel, List.mem_append, List.mem_singleton] at hmem
    rcases hmem with hmem | rfl
    · exact h.released hd hmem
    · exact ⟨ht, hbound⟩
  · rw [hrel, List.mem_append, List.mem_singleton]
    rcases h.gone hd hne hle with hmem | ⟨y, t₁, hy, rfl⟩
    · exact .inl (.inl hmem)
    · by_cases hyx : y = x
      · subst hyx
        obtain rfl : t = t₁ := Option.some.inj (hx.symm.trans hy)
        exact .inl (.inr rfl)
      · exact .inr ⟨y, t₁, by simpa [setObject, hyx] using hy, rfl⟩

/-- A fresh handle. -/
lemma Tracked.create {x : ℕ} {t : Thread} (h : s.Tracked) (hx : s.objects x = none)
    (ht : t.thread = s.created + 1) (hjoin : t.joinable = true) :
    Threads.Tracked { s.setObject x (some t) with created := s.created + 1 } := by
  have hcases : ∀ y t₁, (s.setObject x (some t)).objects y = some t₁ →
      y = x ∧ t₁ = t ∨ y ≠ x ∧ s.objects y = some t₁ := by
    intro y t₁ hy
    exact (objects_setObject hy).imp_left fun ⟨hyx, ho⟩ => ⟨hyx, (Option.some.inj ho).symm⟩
  have hnew : s.created + 1 ∉ s.released := fun hmem => by
    have := (h.released _ hmem).2
    omega
  refine ⟨fun y t₁ hy => ?_, fun y z t₁ t₂ hy hz ht₁ heq => ?_, fun y t₁ hy ht₁ => ?_,
    fun hd hmem => ?_, fun hd hne hle => ?_⟩
  · rcases hcases y t₁ hy with ⟨-, rfl⟩ | ⟨-, hold⟩
    · exact Nat.le_of_eq ht
    · exact Nat.le_trans (h.bound y t₁ hold) (Nat.le_succ _)
  · rcases hcases y t₁ hy with ⟨rfl, rfl⟩ | ⟨-, hold⟩ <;>
      rcases hcases z t₂ hz with ⟨rfl, rfl⟩ | ⟨-, hold'⟩
    · rfl
    · have := h.bound z t₂ hold'
      omega
    · have := h.bound y t₁ hold
      omega
    · exact h.unique _ _ _ _ hold hold' ht₁ heq
  · rcases hcases y t₁ hy with ⟨-, rfl⟩ | ⟨-, hold⟩
    · rw [ht, hjoin]
      exact ⟨fun hf => (by cases hf), fun hmem => absurd hmem hnew⟩
    · exact h.stale y t₁ hold ht₁
  · obtain ⟨hne, hle⟩ := h.released hd hmem
    exact ⟨hne, Nat.le_trans hle (Nat.le_succ _)⟩
  · rcases Nat.lt_or_ge s.created hd with hlt | hle'
    · exact .inr ⟨x, t, by simp [setObject], by rw [ht]; exact Nat.le_antisymm hlt hle⟩
    · refine (h.gone hd hne hle').imp_right ?_
      rintro ⟨y, t₁, hy, hth⟩
      have hyx : y ≠ x := by
        rintro rfl
        simp [hx] at hy
      exact ⟨y, t₁, by simpa [setObject, hyx] using hy, hth⟩

/-- The objects of a swap, seen from the addresses. -/
lemma swap_objects {x y : ℕ} {t t' : Thread} (hx : s.objects x = some t)
    (hy : s.objects y = some t') (z : ℕ) :
    ((s.setObject x (some t')).setObject y (some t)).objects z =
      s.objects (Equiv.swap x y z) := by
  by_cases hzy : z = y
  · subst hzy
    simp [setObject, hx]
  · by_cases hzx : z = x
    · subst hzx
      simp [setObject, hzy, hy]
    · simp [setObject, hzx, hzy, Equiv.swap_apply_of_ne_of_ne hzx hzy]

lemma Tracked.swap {x y : ℕ} {t t' : Thread} (h : s.Tracked) (hx : s.objects x = some t)
    (hy : s.objects y = some t') : ((s.setObject x (some t')).setObject y (some t)).Tracked := by
  have hobj := swap_objects hx hy
  refine ⟨fun z t₁ hz => ?_, fun z w t₁ t₂ hz hw ht₁ heq => ?_, fun z t₁ hz => ?_, h.released,
    fun hd hne hle => ?_⟩
  · exact h.bound _ t₁ (hobj z ▸ hz)
  · exact (Equiv.swap x y).injective (h.unique _ _ _ _ (hobj z ▸ hz) (hobj w ▸ hw) ht₁ heq)
  · exact h.stale _ t₁ (hobj z ▸ hz)
  · refine (h.gone hd hne hle).imp_right ?_
    rintro ⟨z, t₁, hz, hth⟩
    exact ⟨Equiv.swap x y z, t₁, by rw [hobj, Equiv.swap_apply_self, hz], hth⟩

lemma Effect.tracked (he : Effect s a s') (h : s.Tracked) : s'.Tracked := by
  cases he with
  | create hx => exact h.create hx rfl rfl
  | release ha hx ht hc =>
    refine h.release hx ht hc fun t₁ ht₁ => ?_
    rcases ha with ⟨-, rfl⟩ | ⟨-, rfl⟩ | ⟨-, rfl⟩
    · exact .inl (by rw [← Option.some.inj ht₁])
    · exact .inr (by rw [← Option.some.inj ht₁]; exact ⟨rfl, rfl⟩)
    · cases ht₁
  | null ha hx ht' => exact h.null hx ht'
  | swap hx hy => exact h.swap hx hy

lemma reachable_tracked (h : threadSystem.Reachable s) : s.Tracked := by
  refine h.invariant (I := Tracked) ?_ fun s a s' _ hs _ hstep => (step_effect hstep).tracked hs
  rintro s rfl
  exact ⟨by simp, by simp, by simp, by simp [Threads.released], fun h hne hle => by
    simp only [Nat.le_zero] at hle
    exact absurd hle hne⟩

/-! ## Once and only once -/

/-- No handle has been released twice and, once all `Thread` objects are destroyed, each has been
released exactly once. -/
def ReleasedOnce (s : Threads) : Prop :=
  (∀ h, s.released.count h ≤ 1) ∧
    ((∀ x, s.objects x = none) → ∀ h, h ≠ 0 → h ≤ s.created → s.released.count h = 1)

/-- The object that is joined, detached or destroyed. -/
def target? : ThreadAct → Option ℕ
  | .join x | .detach x | .destroy x => some x
  | _ => none

/-- The object that is joined, detached or destroyed does not name a handle that `Detach` has
released: `m_thread` is 0 or `m_joinable` is set. -/
def ReleasesOwn (s : Threads) (a : ThreadAct) : Prop :=
  ∀ x t, target? a = some x → s.objects x = some t → t.thread ≠ 0 → t.joinable = true

/-- No object that names a handle is detached. -/
def DetachesNone (s : Threads) (a : ThreadAct) : Prop :=
  ∀ x t, a = .detach x → s.objects x = some t → t.thread = 0

/-- Some object names a handle that `Detach` has released. -/
def HasStale (s : Threads) : Prop :=
  ∃ x t, s.objects x = some t ∧ t.thread ≠ 0 ∧ t.joinable = false

lemma Tracked.releasedOnce_iff (h : s.Tracked) : s.ReleasedOnce ↔ s.released.Nodup := by
  rw [List.nodup_iff_count_le_one]
  refine ⟨fun hs => hs.1, fun hs => ⟨hs, fun hnone hd hne hle => ?_⟩⟩
  rcases h.gone hd hne hle with hmem | ⟨x, t, hx, -⟩
  · exact Nat.le_antisymm (hs hd) (List.one_le_count_iff.mpr hmem)
  · simp [hnone x] at hx

/-- An operation releases a handle for the second time exactly where it works on a stale object. -/
lemma Effect.nodup_iff (he : Effect s a s') (h : s.Tracked) (hs : s.released.Nodup) :
    s'.released.Nodup ↔ s.ReleasesOwn a := by
  cases he with
  | create | swap => exact ⟨fun _ _ _ hx => by simp [target?] at hx, fun _ => hs⟩
  | null ha hx ht' =>
    refine ⟨fun _ y t hy hobj ht => absurd (hx t ?_) ht, fun _ => hs⟩
    rcases ha with rfl | rfl | rfl | rfl <;> simp_all [target?]
  | @release _ x t t' c ha hx ht hc =>
    have htarget : target? a = some x := by
      rcases ha with ⟨rfl, -⟩ | ⟨rfl, -⟩ | ⟨rfl, -⟩ <;> rfl
    have hrel : released { s.setObject x t' with calls := s.calls ++ [c] } =
        s.released ++ [t.thread] := by simp [released, hc]
    have hown : s.ReleasesOwn a ↔ t.joinable = true := by
      constructor
      · exact fun hown => hown x t htarget hx ht
      · rintro hjoin y t₁ hy hobj -
        obtain rfl : x = y := Option.some.inj (htarget.symm.trans hy)
        obtain rfl : t = t₁ := Option.some.inj (hx.symm.trans hobj)
        exact hjoin
    have hstale := h.stale x t hx ht
    rw [hrel, hown, List.nodup_append]
    simp only [hs, List.nodup_singleton, List.mem_singleton, forall_eq, true_and]
    rw [← Bool.not_eq_false, hstale]
    exact ⟨fun hall hmem => hall _ hmem rfl, fun hnot _ hmem heq => hnot (heq ▸ hmem)⟩

lemma Effect.nodup_of_nodup (he : Effect s a s') (hs : s'.released.Nodup) : s.released.Nodup := by
  cases he with
  | create | null | swap => exact hs
  | release =>
    rw [released, List.map_append] at hs
    exact hs.of_append_left

/-- An object stays stale until a handle has been released twice. -/
lemma Effect.hasStale (he : Effect s a s') (h : s.Tracked) (hs : s.HasStale)
    (hnodup : s'.released.Nodup) : s'.HasStale := by
  obtain ⟨y, t₁, hy, ht₁, hjoin₁⟩ := hs
  have hown := (he.nodup_iff h (he.nodup_of_nodup hnodup)).mp hnodup
  cases he with
  | @create x _ _ hx =>
    have hyx : y ≠ x := by
      rintro rfl
      simp [hx] at hy
    exact ⟨y, t₁, by simpa [setObject, hyx] using hy, ht₁, hjoin₁⟩
  | @null _ x _ ha hx ht' =>
    have hyx : y ≠ x := by
      rintro rfl
      exact ht₁ (hx t₁ hy)
    exact ⟨y, t₁, by simpa [setObject, hyx] using hy, ht₁, hjoin₁⟩
  | @release _ x t t' c ha hx ht hc =>
    have htarget : target? a = some x := by
      rcases ha with ⟨rfl, -⟩ | ⟨rfl, -⟩ | ⟨rfl, -⟩ <;> rfl
    have hyx : y ≠ x := by
      rintro rfl
      simp [hown y t₁ htarget hy ht₁] at hjoin₁
    exact ⟨y, t₁, by simpa [setObject, hyx] using hy, ht₁, hjoin₁⟩
  | @swap x z _ _ hx hy' =>
    refine ⟨Equiv.swap x z y, t₁, ?_, ht₁, hjoin₁⟩
    rw [swap_objects hx hy', Equiv.swap_apply_self, hy]

/-- A detached object that named a handle still does. -/
lemma Effect.hasStale_of_detach (he : Effect s a s') (hdetach : ¬s.DetachesNone a) :
    s'.HasStale := by
  simp only [DetachesNone, not_forall] at hdetach
  obtain ⟨y, t₁, rfl, hy, ht₁⟩ := hdetach
  cases he with
  | @null _ x _ ha hx ht' =>
    obtain rfl : y = x := by simpa using ha
    exact absurd (hx t₁ hy) ht₁
  | @release _ x t t' c ha hx ht hc =>
    obtain ⟨rfl, rfl⟩ : y = x ∧ t' = some { t with joinable := false } := by simpa using ha
    exact ⟨y, { t with joinable := false }, by simp [setObject], ht, rfl⟩

/-- Without a `Detach` of an object that names a handle, no object gets stale. -/
lemma Effect.not_hasStale (he : Effect s a s') (hdetach : s.DetachesNone a) (hs : ¬s.HasStale) :
    ¬s'.HasStale := by
  rintro ⟨y, t₁, hy, ht₁, hjoin₁⟩
  cases he with
  | @create x _ _ hx =>
    by_cases hyx : y = x
    · subst hyx
      simp only [setObject, Function.update_self, Option.some.injEq] at hy
      simp [← hy, Thread.construct] at hjoin₁
    · exact hs ⟨y, t₁, by simpa [setObject, hyx] using hy, ht₁, hjoin₁⟩
  | @null _ x _ ha hx ht' =>
    by_cases hyx : y = x
    · subst hyx
      exact ht₁ (ht' t₁ (by simpa [setObject] using hy))
    · exact hs ⟨y, t₁, by simpa [setObject, hyx] using hy, ht₁, hjoin₁⟩
  | @release _ x t t' c ha hx ht hc =>
    by_cases hyx : y = x
    · subst hyx
      have ht' : t' = some t₁ := by simpa [setObject] using hy
      rcases ha with ⟨-, rfl⟩ | ⟨rfl, -⟩ | ⟨-, rfl⟩
      · exact ht₁ (by rw [← Option.some.inj ht'])
      · exact ht (hdetach y t rfl hx)
      · cases ht'
    · exact hs ⟨y, t₁, by simpa [setObject, hyx] using hy, ht₁, hjoin₁⟩
  | @swap x _ _ _ hx hy' =>
    rw [swap_objects hx hy'] at hy
    exact hs ⟨_, t₁, hy, ht₁, hjoin₁⟩

variable {tr : List (Threads × ThreadAct)}

/-- In a run without a second release, an object is stale as long as an object that named a handle
has been detached. -/
lemma exec_hasStale (h : threadSystem.Exec (fun _ _ => True) tr s) (hnodup : s.released.Nodup)
    (hdetach : ¬AlwaysStep DetachesNone tr) : s.HasStale := by
  induction h with
  | init => simp at hdetach
  | @step tr s s' a h _ hstep ih =>
    have he := step_effect hstep
    have hs := reachable_tracked h.reachableUnder
    rw [alwaysStep_cons, not_and_or] at hdetach
    rcases hdetach with hdetach | hdetach
    · exact he.hasStale_of_detach hdetach
    · exact he.hasStale hs (ih (he.nodup_of_nodup hnodup) hdetach) hnodup

/-- Without a `Detach` of an object that names a handle, every release is the first. -/
lemma exec_releasesOwn (h : threadSystem.Exec (fun _ _ => True) tr s)
    (hdetach : AlwaysStep DetachesNone tr) : ¬s.HasStale ∧ AlwaysStep ReleasesOwn tr := by
  induction h with
  | init h =>
    obtain rfl : _ = _ := h
    exact ⟨fun ⟨x, t, hx, _⟩ => by simp at hx, alwaysStep_nil _⟩
  | @step tr s s' a _ _ hstep ih =>
    obtain ⟨hd, hdtr⟩ := (alwaysStep_cons ..).mp hdetach
    obtain ⟨hs, htr⟩ := ih hdtr
    refine ⟨(step_effect hstep).not_hasStale hd hs, (alwaysStep_cons ..).mpr ⟨?_, htr⟩⟩
    intro x t _ hx ht
    by_contra hjoin
    exact hs ⟨x, t, hx, ht, by simpa using hjoin⟩

/-- **When each pthread handle is released exactly once.** In every state of a run no handle has
been released twice, and each exactly once when all objects are destroyed, if and only if no `Join`,
`Detach` or destruction in the run is made of an object whose handle a `Detach` has released before.
For a run that ends with all objects destroyed, that is: no object that names a handle is ever
detached. -/
theorem released_once_iff (h : threadSystem.Exec (fun _ _ => True) tr s) :
    (AlwaysState ReleasedOnce tr s ↔ AlwaysStep ReleasesOwn tr) ∧
      ((∀ x, s.objects x = none) →
        (AlwaysState ReleasedOnce tr s ↔ AlwaysStep DetachesNone tr)) := by
  have hiff : AlwaysState ReleasedOnce tr s ↔ AlwaysStep ReleasesOwn tr := by
    refine h.always_iff ?_ fun s a s' hreach hs _ hstep => ?_
    · rintro s rfl
      exact ⟨by simp [released], fun _ hd hne hle => absurd (Nat.le_zero.mp hle) hne⟩
    · have he := step_effect hstep
      have htracked := reachable_tracked hreach
      rw [(he.tracked htracked).releasedOnce_iff]
      exact he.nodup_iff htracked (htracked.releasedOnce_iff.mp hs)
  refine ⟨hiff, fun hnone => ⟨fun hall => ?_, fun hdetach => ?_⟩⟩
  · by_contra hdetach
    have htracked := reachable_tracked h.reachableUnder
    obtain ⟨x, t, hx, -⟩ := exec_hasStale h (htracked.releasedOnce_iff.mp hall.1) hdetach
    simp [hnone x] at hx
  · exact hiff.mpr (exec_releasesOwn h hdetach).2

/-- Two threads, one joined and one handed over by a swap and released by the destructor. -/
theorem released_once_iff_two_threads :
    ∃ tr s, threadSystem.Exec (fun _ _ => True) tr s ∧ (∀ x, s.objects x = none) ∧
      s.released = [1, 2] ∧ AlwaysState ReleasedOnce tr s := by
  have hrun : ∃ tr s, threadSystem.Exec (fun _ _ => True) tr s ∧ (∀ x, s.objects x = none) ∧
      s.released = [1, 2] ∧ AlwaysStep DetachesNone tr := by
    refine ⟨_, _, .step (.step (.step (.step (.step (.step (.init rfl) trivial
      (a := .construct 0 "executor-0" 100) rfl) trivial (a := .construct 1 "" 101) rfl)
      trivial (a := .join 0) rfl) trivial (a := .swap 0 1) rfl) trivial (a := .destroy 0) rfl)
      trivial (a := .destroy 1) rfl, fun x => ?_, rfl, by simp [DetachesNone]⟩
    by_cases h0 : x = 0 <;> by_cases h1 : x = 1 <;> simp [setObject, h0, h1]
  obtain ⟨tr, s, h, hnone, hreleased, hdetach⟩ := hrun
  exact ⟨tr, s, h, hnone, hreleased, ((released_once_iff h).2 hnone).mpr hdetach⟩

/-- `CreateNewExecutor`: the `Thread` is detached and then destroyed at the end of its scope. The
handle is passed to `pthread_detach` twice. -/
theorem detach_then_destroy :
    ∃ tr s, threadSystem.Exec (fun _ _ => True) tr s ∧ (∀ x, s.objects x = none) ∧
      s.calls = [.detach 1, .detach 1] ∧ ¬s.ReleasedOnce := by
  refine ⟨_, _, .step (.step (.step (.init rfl) trivial (a := .construct 0 "executor-0" 100) rfl)
    trivial (a := .detach 0) rfl) trivial (a := .destroy 0) rfl, fun x => ?_, rfl, fun hs => ?_⟩
  · by_cases h0 : x = 0 <;> simp [setObject, h0]
  · exact absurd (hs.1 1) (by decide)

end Threads

end CoroutineCpp
