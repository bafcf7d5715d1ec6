import CoroutineCpp.Model.ThreadNames
import CoroutineCpp.Properties.ThreadHandles

/-!
# Names and self pointers of threads

`Consistent` is the invariant written beside `t_thread_name`: a thread started through `Thread` has
`t_thread` at the object that owns its handle, and its `t_thread_name` is the name of that object.
`KeepsOthers` says of an operation that no other thread reports another name after it, nor the
creator after a construction.

Two operations go wrong.  The constructor writes the new name into the creator's `t_thread_name`,
and `Swap` moves a handle to an object that the thread's `t_thread` does not point to.
`consistent_iff` says that these are the only ones.
-/

namespace CoroutineCpp

open Framework TransitionSystem

/-! ## Renaming an object -/

namespace Threads

variable {s : Threads} {x z : ℕ} {name : String} {t : Thread}

lemma rename_objects (s : Threads) (x : ℕ) (name : String) (z : ℕ) :
    (s.rename x name).objects z =
      if z = x then (s.objects z).map fun t => { t with name := name } else s.objects z := by
  by_cases hzx : z = x
  · subst hzx
    simp [rename, setObject]
  · simp [rename, setObject, hzx]

/-- A renamed object has the handle it had. -/
lemma objects_of_rename (h : (s.rename x name).objects z = some t) :
    ∃ t₀, s.objects z = some t₀ ∧ t₀.thread = t.thread ∧ t₀.joinable = t.joinable := by
  rw [rename_objects] at h
  split at h
  next =>
    obtain ⟨t₀, ht₀, rfl⟩ := Option.map_eq_some_iff.mp h
    exact ⟨t₀, ht₀, rfl, rfl⟩
  next => exact ⟨t, h, rfl, rfl⟩

lemma exists_rename (x : ℕ) (name : String) (h : s.objects z = some t) :
    ∃ t', (s.rename x name).objects z = some t' ∧ t'.thread = t.thread := by
  rw [rename_objects, h]
  split
  · exact ⟨_, rfl, rfl⟩
  · exact ⟨_, rfl, rfl⟩

lemma Tracked.rename (h : s.Tracked) (x : ℕ) (name : String) : (s.rename x name).Tracked := by
  refine ⟨fun z t hz => ?_, fun z w t t' hz hw ht heq => ?_, fun z t hz ht => ?_, h.released,
    fun hd hne hle => ?_⟩
  · obtain ⟨t₀, hz₀, hth, -⟩ := objects_of_rename hz
    exact hth ▸ h.bound z t₀ hz₀
  · obtain ⟨t₀, hz₀, hth, -⟩ := objects_of_rename hz
    obtain ⟨t₀', hw₀, hth', -⟩ := objects_of_rename hw
    exact h.unique z w t₀ t₀' hz₀ hw₀ (hth ▸ ht) (by rw [hth, hth', heq])
  · obtain ⟨t₀, hz₀, hth, hjoin⟩ := objects_of_rename hz
    rw [← hth, ← hjoin]
    exact h.stale z t₀ hz₀ (hth ▸ ht)
  · refine (h.gone hd hne hle).imp_right ?_
    rintro ⟨z, t, hz, hth⟩
    obtain ⟨t', hz', hth'⟩ := exists_rename x name hz
    exact ⟨z, t', hz', hth'.trans hth⟩

end Threads

namespace ThreadNames

variable {s s' : ThreadNames} {p : Pthread}

/-! ## The properties -/

/-- Every thread started through `Thread` has `t_thread` at the object that owns its handle, and
reports the name of that object. -/
def Consistent (s : ThreadNames) : Prop :=
  ∀ h, s.Alive (.started h) → ∃ x t, s.tThread (.started h) = some x ∧
    s.threads.objects x = some t ∧ t.thread = h ∧ s.getName (.started h) = t.name

/-- No other thread reports another name in `s'` than in `s` nor, if `a` constructs a thread, the
thread that performs it. -/
def OthersKept (s : ThreadNames) (p : Pthread) (a : NameAct) (s' : ThreadNames) : Prop :=
  (∀ q, s.Alive q → q ≠ p → s'.getName q = s.getName q) ∧
    ∀ x name tid, a = .construct x name tid → s'.getName p = s.getName p

/-- The operation changes the name of no other thread, nor a construction that of the creator. -/
def KeepsOthers (s : ThreadNames) (act : Pthread × NameAct) : Prop :=
  ∀ s', s.step act = some s' → s.OthersKept act.1 act.2 s'

/-- A construction gives the new thread the name that its creator has, and a swap is of an object
with itself or of two objects without a handle. -/
def NamesKept (s : ThreadNames) (act : Pthread × NameAct) : Prop :=
  match act.2 with
  | .construct _ name _ => (if name.isEmpty then "UNKNOWN" else name) = s.getName act.1
  | .swap x y => x = y ∨ ∀ z t, z = x ∨ z = y → s.threads.objects z = some t → t.thread = 0
  | _ => True

/-! ## What an operation does -/

/-- The cases of an operation, performed by thread `p`. -/
inductive Effect (s : ThreadNames) (p : Pthread) : NameAct → ThreadNames → Prop
  | constructDefault {x : ℕ} (hx : s.threads.objects x = none) :
      Effect s p (.constructDefault x) { s with threads := s.threads.setObject x (some {}) }
  | construct {x : ℕ} {name : String} {tid : ℤ} {threads : Threads}
      (hx : s.threads.objects x = none)
      (hthreads : threads =
        { s.threads.setObject x (some (.construct name (s.threads.created + 1) tid)) with
          created := s.threads.created + 1 }) :
      Effect s p (.construct x name tid) (s.construct p x name threads)
  | setName {name : String} : Effect s p (.setName name) (s.setName p name)
  | getName : Effect s p .getName s
  | swap {x y : ℕ} {t t' : Thread} (hx : s.threads.objects x = some t)
      (hy : s.threads.objects y = some t') :
      Effect s p (.swap x y)
        { s with threads := (s.threads.setObject x (some t')).setObject y (some t) }

/-- **Every operation is an effect**, performed by a thread that exists. -/
lemma step_effect {a : NameAct} (h : s.step (p, a) = some s') : s.Alive p ∧ Effect s p a s' := by
  unfold step at h
  split at h
  next hp =>
    refine ⟨hp, ?_⟩
    cases a with
    | constructDefault x =>
      obtain ⟨threads, hstep, rfl⟩ := Option.map_eq_some_iff.mp h
      cases hx : s.threads.objects x with
      | none =>
        simp only [Threads.step, hx, Option.some.injEq] at hstep
        exact hstep ▸ .constructDefault hx
      | some t => simp [Threads.step, hx] at hstep
    | construct x name tid =>
      obtain ⟨threads, hstep, rfl⟩ := Option.map_eq_some_iff.mp h
      cases hx : s.threads.objects x with
      | none =>
        simp only [Threads.step, hx, Option.some.injEq] at hstep
        exact .construct hx hstep.symm
      | some t => simp [Threads.step, hx] at hstep
    | setName name => exact Option.some.inj h ▸ .setName
    | getName => exact Option.some.inj h ▸ .getName
    | swap x y =>
      obtain ⟨threads, hstep, rfl⟩ := Option.map_eq_some_iff.mp h
      cases hx : s.threads.objects x with
      | none => simp [Threads.step, hx] at hstep
      | some t =>
        cases hy : s.threads.objects y with
        | none => simp [Threads.step, hx, hy] at hstep
        | some t' =>
          simp only [Threads.step, hx, hy, Option.some.injEq] at hstep
          exact hstep ▸ .swap hx hy
  next => cases h

/-! ### Constructing a thread -/

lemma construct_tThread (p q : Pthread) (x : ℕ) (name : String) (threads : Threads)
    (s : ThreadNames) :
    (s.construct p x name threads).tThread q =
      if q = .started threads.created then some x else s.tThread q := by
  by_cases hq : q = .started threads.created
  · subst hq
    simp [construct, run]
  · simp [construct, run, hq]

lemma construct_getName (p q : Pthread) (x : ℕ) (name : String) (threads : Threads)
    (s : ThreadNames) :
    (s.construct p x name threads).getName q =
      if q = .started threads.created ∨ q = p then if name.isEmpty then "UNKNOWN" else name
      else s.getName q := by
  by_cases hq : q = .started threads.created
  · subst hq
    simp [construct, run, getName]
  · by_cases hqp : q = p
    · subst hqp
      simp [construct, run, getName, hq]
    · simp [construct, run, getName, hq, hqp]

/-! ### Setting a name -/

lemma setName_getName (p q : Pthread) {name : String} (hname : name.isEmpty = false)
    (s : ThreadNames) :
    (s.setName p name).getName q = if q = p then name else s.getName q := by
  by_cases hqp : q = p
  · subst hqp
    cases htt : s.tThread q <;> simp [setName, hname, getName, htt]
  · cases htt : s.tThread p <;> simp [setName, hname, getName, htt, hqp]

@[simp] lemma setName_tThread (p q : Pthread) (name : String) (s : ThreadNames) :
    (s.setName p name).tThread q = s.tThread q := by
  unfold setName
  split
  · rfl
  · cases s.tThread p <;> rfl

@[simp] lemma setName_created (p : Pthread) (name : String) (s : ThreadNames) :
    (s.setName p name).threads.created = s.threads.created := by
  unfold setName
  split
  · rfl
  · cases s.tThread p <;> rfl

/-- `SetName` renames the caller's object, if it has one. -/
lemma setName_threads (p : Pthread) {name : String} (hname : name.isEmpty = false)
    (s : ThreadNames) :
    (s.setName p name).threads =
      match s.tThread p with
      | none => s.threads
      | some x => s.threads.rename x name := by
  cases htt : s.tThread p <;> simp [setName, hname, htt]

lemma setName_of_isEmpty (p : Pthread) {name : String} (hname : name.isEmpty = true)
    (s : ThreadNames) : s.setName p name = s := if_pos hname

/-! ## What holds in every run -/

/-- A thread that was not started through `Thread` has no object, and the handles are those of
`Properties/ThreadHandles.lean`. -/
structure Inv (s : ThreadNames) : Prop where
  tracked : s.threads.Tracked
  outside : ∀ k, s.tThread (.outside k) = none

lemma Effect.inv {a : NameAct} (he : Effect s p a s') (hs : s.Inv) : s'.Inv := by
  cases he with
  | constructDefault hx =>
    exact ⟨hs.tracked.null (by simp [hx]) (by simp), hs.outside⟩
  | construct hx hthreads =>
    subst hthreads
    refine ⟨hs.tracked.create hx rfl rfl, fun k => ?_⟩
    rw [construct_tThread, if_neg (by simp), hs.outside]
  | @setName name =>
    refine ⟨?_, fun k => by rw [setName_tThread, hs.outside]⟩
    cases hname : name.isEmpty with
    | true => rw [setName_of_isEmpty p hname]; exact hs.tracked
    | false =>
      rw [setName_threads p hname]
      split
      · exact hs.tracked
      · exact hs.tracked.rename _ _
  | getName => exact hs
  | swap hx hy => exact ⟨hs.tracked.swap hx hy, hs.outside⟩

lemma reachable_inv (h : nameSystem.Reachable s) : s.Inv := by
  refine h.invariant (I := Inv) ?_ fun s a s' _ hs _ hstep => (step_effect hstep).2.inv hs
  rintro s rfl
  exact ⟨Threads.reachable_tracked (.init rfl), fun _ => rfl⟩

/-! ## Which operations keep the names -/

section Consistent

variable {x y : ℕ} {t t' : Thread} {name : String}

lemma Consistent.constructDefault (hs : s.Consistent) (hx : s.threads.objects x = none)
    (o : Option Thread) : Consistent { s with threads := s.threads.setObject x o } := by
  intro h hh
  obtain ⟨z, t, hz, ht, hth, hname⟩ := hs h hh
  have hzx : z ≠ x := by
    rintro rfl
    rw [hx] at ht
    cases ht
  exact ⟨z, t, hz, by simpa [Threads.setObject, hzx] using ht, hth, hname⟩

/-- A construction keeps the property where the creator already has the new thread's name. -/
lemma Consistent.construct {tid : ℤ} {threads : Threads} (hs : s.Consistent)
    (hx : s.threads.objects x = none)
    (hthreads : threads =
      { s.threads.setObject x (some (.construct name (s.threads.created + 1) tid)) with
        created := s.threads.created + 1 })
    (hname : (if name.isEmpty then "UNKNOWN" else name) = s.getName p) :
    (s.construct p x name threads).Consistent := by
  subst hthreads
  rintro h ⟨hne, hle⟩
  rw [construct_tThread, construct_getName]
  by_cases hnew : h = s.threads.created + 1
  · subst hnew
    exact ⟨x, .construct name (s.threads.created + 1) tid, if_pos rfl, Function.update_self .., rfl,
      if_pos (.inl rfl)⟩
  · have hle : h ≤ s.threads.created + 1 := hle
    have hold : h ≤ s.threads.created := by omega
    obtain ⟨z, t, hz, ht, hth, hzname⟩ := hs h ⟨hne, hold⟩
    have hzx : z ≠ x := by
      rintro rfl
      rw [hx] at ht
      cases ht
    refine ⟨z, t, by simpa [hnew] using hz, (Function.update_of_ne hzx ..).trans ht, hth, ?_⟩
    split
    next hp =>
      obtain rfl : Pthread.started h = p := hp.resolve_left (by simpa using hnew)
      exact hname.trans hzname
    next => exact hzname

lemma Consistent.setName (hs : s.Consistent) (hinv : s.Inv) (hp : s.Alive p)
    (name : String) : (s.setName p name).Consistent := by
  cases hempty : name.isEmpty with
  | true => rwa [setName_of_isEmpty p hempty]
  | false =>
    intro h hh
    obtain ⟨z, t, hz, ht, hth, hname⟩ := hs h (by simpa [Alive] using hh)
    rw [setName_tThread, setName_getName p _ hempty, setName_threads p hempty]
    by_cases hph : .started h = p
    · -- the caller: both its object and its variable get the name
      subst hph
      refine ⟨z, { t with name := name }, hz, ?_, hth, if_pos rfl⟩
      rw [hz]
      simp [Threads.rename_objects, ht]
    · refine ⟨z, t, hz, ?_, hth, by rw [if_neg hph]; exact hname⟩
      cases p with
      | outside k => rw [hinv.outside k]; exact ht
      | started h' =>
        obtain ⟨z', t', hz', ht', hth', -⟩ := hs h' hp
        have hne : z ≠ z' := by
          rintro rfl
          rw [ht, Option.some.injEq] at ht'
          exact hph (by rw [← hth, ← hth', ht'])
        rw [hz']
        simp [Threads.rename_objects, hne, ht]

/-- An object that owns a handle is the one its thread points to. -/
lemma Consistent.tThread_of_object (hs : s.Consistent) (hinv : s.Inv)
    (hx : s.threads.objects x = some t) (ht : t.thread ≠ 0) :
    s.tThread (.started t.thread) = some x := by
  obtain ⟨z, t₁, hz, ht₁, hth, -⟩ := hs t.thread ⟨ht, hinv.tracked.bound x t hx⟩
  rwa [← hinv.tracked.unique z x t₁ t ht₁ hx (hth ▸ ht) hth]

/-- A handle cannot be moved away from the object its thread points to. -/
lemma Consistent.thread_eq_zero {threads : Threads} (hs : s.Consistent) (hinv : s.Inv)
    (hx : s.threads.objects x = some t) (hs' : Consistent { s with threads := threads })
    (hcreated : threads.created = s.threads.created)
    (hmoved : ∀ t₁, threads.objects x = some t₁ → t₁.thread = t.thread → t.thread = 0) :
    t.thread = 0 := by
  by_contra ht
  obtain ⟨z, t₁, hz, ht₁, hth, -⟩ :=
    hs' t.thread ⟨ht, hcreated.symm ▸ hinv.tracked.bound x t hx⟩
  obtain rfl : x = z := Option.some.inj ((hs.tThread_of_object hinv hx ht).symm.trans hz)
  exact ht (hmoved t₁ ht₁ hth)

/-- **When a swap keeps the property.** -/
lemma Consistent.swap_iff (hs : s.Consistent) (hinv : s.Inv)
    (hx : s.threads.objects x = some t) (hy : s.threads.objects y = some t') :
    Consistent { s with threads := (s.threads.setObject x (some t')).setObject y (some t) } ↔
      x = y ∨ ∀ z t, z = x ∨ z = y → s.threads.objects z = some t → t.thread = 0 := by
  have hobj := Threads.swap_objects hx hy
  constructor
  · intro hs'
    refine or_iff_not_imp_left.mpr fun hxy z t₁ hz hzt => ?_
    refine hs.thread_eq_zero hinv hzt hs' rfl fun t₂ ht₂ heq => ?_
    rw [hobj] at ht₂
    by_contra hne
    have hfix := hinv.tracked.unique z _ t₁ t₂ hzt ht₂ hne heq.symm
    rcases hz with rfl | rfl
    · exact hxy (hfix.trans (Equiv.swap_apply_left _ _))
    · exact hxy (hfix.trans (Equiv.swap_apply_right _ _)).symm
  · intro h d hd
    obtain ⟨z, t₁, hz, ht₁, hth, hname⟩ := hs d hd
    refine ⟨z, t₁, hz, (hobj z).trans ?_, hth, hname⟩
    rcases h with rfl | hnull
    · rw [Equiv.swap_self]
      exact ht₁
    · have hzx : z ≠ x := fun hzx => hd.1 (hth ▸ hnull z t₁ (.inl hzx) ht₁)
      have hzy : z ≠ y := fun hzy => hd.1 (hth ▸ hnull z t₁ (.inr hzy) ht₁)
      rw [Equiv.swap_apply_of_ne_of_ne hzx hzy]
      exact ht₁

end Consistent

/-- What each operation does to the property of the states and to that of the steps. -/
lemma Effect.keeps_iff_namesKept {a : NameAct} (hp : s.Alive p) (he : Effect s p a s')
    (hinv : s.Inv) (hs : s.Consistent) :
    (s'.Consistent ∧ s.OthersKept p a s') ↔ s.NamesKept (p, a) := by
  cases he with
  | constructDefault hx =>
    exact iff_of_true ⟨hs.constructDefault hx _, fun _ _ _ => rfl, by simp⟩ trivial
  | @construct x name tid threads hx hthreads =>
    have hnew : threads.created = s.threads.created + 1 := by rw [hthreads]
    constructor
    · rintro ⟨-, -, hcreator⟩
      have hname := hcreator x name tid rfl
      rw [construct_getName, if_pos (.inr rfl)] at hname
      exact hname
    · intro hname
      refine ⟨hs.construct hx hthreads hname, fun q hq hqp => ?_, fun _ _ _ _ => ?_⟩
      · have hqnew : q ≠ .started threads.created := by
          rintro rfl
          have hle := hq.2
          omega
        rw [construct_getName, if_neg (by simp [hqp, hqnew])]
      · rw [construct_getName, if_pos (.inr rfl)]
        exact hname
  | @setName name =>
    refine iff_of_true ⟨hs.setName hinv hp name, fun q _ hqp => ?_, by simp⟩ trivial
    cases hempty : name.isEmpty with
    | true => rw [setName_of_isEmpty p hempty]
    | false => rw [setName_getName p q hempty, if_neg hqp]
  | getName => exact iff_of_true ⟨hs, fun _ _ _ => rfl, by simp⟩ trivial
  | swap hx hy =>
    refine Iff.trans ?_ (hs.swap_iff hinv hx hy)
    exact and_iff_left ⟨fun _ _ _ => rfl, by simp⟩

/-- **When names and self pointers stay consistent.**  In a run of any number of threads that
construct `Thread` objects, get and set names and swap objects: every thread started through
`Thread` has `t_thread` at the object that owns its handle and reports that object's name in every
state, and no operation changes the name another thread reports nor a construction its creator's,
exactly when every construction gives the new thread the name of its creator and no swap moves a
handle. -/
theorem consistent_iff {tr : List (ThreadNames × (Pthread × NameAct))}
    (h : nameSystem.Exec (fun _ _ => True) tr s) :
    AlwaysState Consistent tr s ∧ AlwaysStep KeepsOthers tr ↔ AlwaysStep NamesKept tr := by
  refine h.always_and_iff ?_ fun s act s' hreach hs _ hstep => ?_
  · rintro s rfl d ⟨hne, hle⟩
    exact absurd (Nat.le_zero.mp hle) hne
  · obtain ⟨p, a⟩ := act
    obtain ⟨hp, he⟩ := step_effect hstep
    rw [← he.keeps_iff_namesKept hp (reachable_inv hreach) hs]
    refine and_congr_right fun _ => ⟨fun hkeep => hkeep s' hstep, fun hkept s₁ hs₁ => ?_⟩
    obtain rfl : s' = s₁ := Option.some.inj (hstep.symm.trans hs₁)
    exact hkept

/-- The main thread names itself, starts a thread with that name, which starts another with its own
name and then renames itself. -/
theorem consistent_iff_same_names :
    ∃ tr s, nameSystem.Exec (fun _ _ => True) tr s ∧
      s.getName (.outside 0) = "pool" ∧ s.getName (.started 1) = "worker" ∧
      s.getName (.started 2) = "pool" ∧
      AlwaysState Consistent tr s ∧ AlwaysStep KeepsOthers tr := by
  have hrun : ∃ tr s, nameSystem.Exec (fun _ _ => True) tr s ∧
      s.getName (.outside 0) = "pool" ∧ s.getName (.started 1) = "worker" ∧
      s.getName (.started 2) = "pool" ∧ AlwaysStep NamesKept tr := by
    refine ⟨_, _, .step (.step (.step (.step (.init rfl) trivial
      (a := (.outside 0, .setName "pool")) rfl) trivial
      (a := (.outside 0, .construct 0 "pool" 101)) rfl) trivial
      (a := (.started 1, .construct 1 "pool" 102)) rfl) trivial
      (a := (.started 1, .setName "worker")) rfl, ?_⟩
    simp only [alwaysStep_cons, alwaysStep_nil, and_true]
    exact ⟨rfl, rfl, rfl, trivial, rfl, rfl, trivial⟩
  obtain ⟨tr, s, hexec, hmain, hfirst, hsecond, hkept⟩ := hrun
  exact ⟨tr, s, hexec, hmain, hfirst, hsecond, (consistent_iff hexec).mpr hkept⟩

/-- The main thread starts the thread `executor-1` and is itself called so afterwards.  And
`CoScheduler::Start` swaps the dispatcher into `m_dispatcher`: the dispatcher's `t_thread` stays at
the local object, which owns nothing. -/
theorem names_not_kept :
    (∃ tr s, nameSystem.Exec (fun _ _ => True) tr s ∧
      s.getName (.outside 0) = "executor-1" ∧ ¬ AlwaysStep KeepsOthers tr) ∧
    ∃ tr s, nameSystem.Exec (fun _ _ => True) tr s ∧
      s.tThread (.started 1) = some 1 ∧ ¬ AlwaysState Consistent tr s := by
  refine ⟨⟨_, _, .step (.init rfl) trivial (a := (.outside 0, .construct 0 "executor-1" 101)) rfl,
    rfl, fun hkeep => ?_⟩, _, _, .step (.step (.step (.init rfl) trivial
      (a := (.outside 0, .constructDefault 0)) rfl) trivial
      (a := (.outside 0, .construct 1 "sched-dispat" 101)) rfl) trivial
      (a := (.outside 0, .swap 0 1)) rfl, rfl, fun hs => ?_⟩
  · rw [alwaysStep_cons] at hkeep
    have hname := (hkeep.1 _ rfl).2 0 "executor-1" 101 rfl
    exact absurd hname (by decide)
  · obtain ⟨x, t, hx, ht, hth, -⟩ := hs.1 1 (by decide)
    obtain rfl : 1 = x := Option.some.inj hx
    obtain rfl := Option.some.inj ht
    exact absurd hth (by decide)

end ThreadNames

end CoroutineCpp
