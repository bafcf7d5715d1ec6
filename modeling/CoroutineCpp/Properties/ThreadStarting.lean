import CoroutineCpp.Properties.ThreadStartSteps

/-!
# A new thread and the constructor that waits for it

`Run` works on the object that its constructor is still building, without a lock: what keeps the two
apart is that the constructor returns only after the `Post`, behind which `Run` does not touch the
object any more.  `Wired` says which constructor and which thread an object belongs to while it is
built, and what its members are at each point of both.
-/

namespace CoroutineCpp

open Framework TransitionSystem

namespace ThreadStart

variable {s s' : ThreadStart} {a : StartAct} {p : Pthread} {h x : ℕ}

/-! ## Who works on an object -/

/-- The members of the object at `x` while its thread `h` stands at the given point. -/
def RunData (s : ThreadStart) (x h : ℕ) (o : ThreadObject) : RunPc → Prop
  | .unborn => False
  | .setThis y => y = x ∧ o.cb = s.given h ∧ o.semaphore = 0
  | .setThreadName y | .setId y =>
    y = x ∧ s.tThread (.started h) = some x ∧ o.cb = s.given h ∧ o.semaphore = 0
  | .takeCb y =>
    y = x ∧ s.tThread (.started h) = some x ∧ o.id = s.threadId h ∧ o.cb = s.given h ∧
      o.semaphore = 0
  | .post y cb =>
    y = x ∧ s.tThread (.started h) = some x ∧ o.id = s.threadId h ∧ o.cb = none ∧
      cb = s.given h ∧ o.semaphore = 0
  | .call _ | .running _ | .returned =>
    s.tThread (.started h) = some x ∧ o.id = s.threadId h ∧ o.cb = none ∧ o.semaphore = 1

/-- The members of the object at `x` at each stage of its construction. -/
def ObjectData (s : ThreadStart) (x : ℕ) (o : ThreadObject) : Prop :=
  match o.stage with
  | .fresh p =>
    o.joinable = true ∧ o.semaphore = 0 ∧ o.cb.isSome ∧ o.name.isEmpty = false ∧
      (s.ctors p = .setName x ∨
        ∃ old, s.ctors p = .create x old ∧ s.tThreadName p = o.name)
  | .made p h =>
    o.joinable = true ∧ (s.ctors p = .store x h ∨ s.ctors p = .wait x ∧ o.thread = h) ∧
      s.RunData x h o (s.runs h)
  | .constructed => o.cb = none ∧ o.semaphore = 0

/-- What the thread `h` does with the callback it was given. -/
def CallData (s : ThreadStart) (h : ℕ) : RunPc → Prop
  | .call cb => cb = s.given h
  | .running cb => s.given h = some cb
  | _ => True

/-- The invariant of the construction. -/
structure Wired (s : ThreadStart) : Prop where
  fault : s.fault = none
  ctor : ∀ p x, (s.ctors p).target = some x →
    ∃ o, s.objects x = some o ∧ (o.stage = .fresh p ∨ ∃ h, o.stage = .made p h)
  run : ∀ h x, (s.runs h).target = some x → ∃ o p, s.objects x = some o ∧ o.stage = .made p h
  object : ∀ x o, s.objects x = some o → s.ObjectData x o
  this : ∀ p x, s.tThread p = some x → ∃ o, s.objects x = some o ∧
    (o.stage = .constructed ∨ ∃ q h, o.stage = .made q h ∧ p = .started h)
  callback : ∀ h, s.CallData h (s.runs h)
  born : ∀ h, s.runs h ≠ .unborn ↔ 1 ≤ h ∧ h ≤ s.created
  given : ∀ h, s.runs h ≠ .unborn → (s.given h).isSome
  busy : ∀ h, s.ctors (.started h) ≠ .idle → ∃ cb, s.runs h = .running cb

lemma RunData.of_frame {o o' : ThreadObject} {pc : RunPc} (hdata : s.RunData x h o pc)
    (hthis : s'.tThread (.started h) = s.tThread (.started h)) (hgiven : s'.given h = s.given h)
    (hid : s'.threadId h = s.threadId h)
    (ho : o'.id = o.id ∧ o'.cb = o.cb ∧ o'.semaphore = o.semaphore) : s'.RunData x h o' pc := by
  cases pc with
  | unborn => exact hdata.elim
  | _ => simpa only [RunData, hthis, hgiven, hid, ho] using hdata

lemma ObjectData.of_frame {o : ThreadObject} (h : s.ObjectData x o)
    (hctor : ∀ p, (o.stage = .fresh p ∨ ∃ h, o.stage = .made p h) →
      s'.ctors p = s.ctors p ∧ s'.tThreadName p = s.tThreadName p)
    (hrun : ∀ p h, o.stage = .made p h →
      s'.runs h = s.runs h ∧ s'.given h = s.given h ∧ s'.threadId h = s.threadId h ∧
        s'.tThread (.started h) = s.tThread (.started h)) :
    s'.ObjectData x o := by
  unfold ObjectData at h ⊢
  cases hst : o.stage with
  | fresh p =>
    simp only [hst] at h ⊢
    obtain ⟨hc, hn⟩ := hctor p (.inl hst)
    rwa [hc, hn]
  | made p h' =>
    simp only [hst] at h ⊢
    obtain ⟨hc, -⟩ := hctor p (.inr ⟨h', hst⟩)
    obtain ⟨hr, hg, hi, ht⟩ := hrun p h' hst
    rw [hc, hr]
    exact ⟨h.1, h.2.1, h.2.2.of_frame ht hg hi ⟨rfl, rfl, rfl⟩⟩
  | constructed =>
    simp only [hst] at h ⊢
    exact h

lemma CallData.of_frame {pc : RunPc} (hc : s.CallData h pc) (hg : s'.given h = s.given h) :
    s'.CallData h pc := by
  cases pc with
  | call cb => exact hc.trans hg.symm
  | running cb => exact hg.trans hc
  | _ => trivial

/-- The constructor of an object that is being built works on it. -/
lemma Wired.target {o : ThreadObject} (hs : s.Wired) (hx : s.objects x = some o)
    (hst : o.stage = .fresh p ∨ ∃ h, o.stage = .made p h) : (s.ctors p).target = some x := by
  have hdata := hs.object x o hx
  unfold ObjectData at hdata
  rcases hst with hst | ⟨h, hst⟩
  · simp only [hst] at hdata
    rcases hdata.2.2.2.2 with hpc | ⟨old, hpc, -⟩ <;> simp [hpc, CtorPc.target]
  · simp only [hst] at hdata
    rcases hdata.2.1 with hpc | ⟨hpc, -⟩ <;> simp [hpc, CtorPc.target]

lemma Wired.not_idle {o : ThreadObject} (hs : s.Wired) (hx : s.objects x = some o)
    (hst : o.stage = .fresh p ∨ ∃ h, o.stage = .made p h) : s.ctors p ≠ .idle := by
  intro hidle
  have htarget := hs.target hx hst
  simp [hidle, CtorPc.target] at htarget

lemma Wired.runData {o : ThreadObject} (hs : s.Wired) (hx : s.objects x = some o)
    (hst : o.stage = .made p h) : s.RunData x h o (s.runs h) := by
  have hdata := hs.object x o hx
  simp only [ObjectData, hst] at hdata
  exact hdata.2.2

/-- A thread belongs to one object that is being built. -/
lemma Wired.single {y : ℕ} {o o' : ThreadObject} {q : Pthread} (hs : s.Wired)
    (hx : s.objects x = some o) (hst : o.stage = .made p h) (hy : s.objects y = some o')
    (hst' : o'.stage = .made q h) : y = x := by
  have hrun := hs.runData hx hst
  have hrun' := hs.runData hy hst'
  cases hpc : s.runs h with
  | unborn => simp [hpc, RunData] at hrun
  | setThis z =>
    simp only [hpc, RunData] at hrun hrun'
    exact hrun'.1.symm.trans hrun.1
  | setThreadName | setId | takeCb | post =>
    simp only [hpc, RunData] at hrun hrun'
    exact Option.some.inj (hrun'.2.1.symm.trans hrun.2.1)
  | call | running | returned =>
    simp only [hpc, RunData] at hrun hrun'
    exact Option.some.inj (hrun'.1.symm.trans hrun.1)

/-- A step of thread `p` in its program or a constructor, or of thread `h` in `Run`, that concerns
no object but the one at `x`. -/
lemma Wired.move {o' : ThreadObject} (hs : s.Wired)
    (hp : ∀ y, (s.ctors p).target = some y → y = x)
    (hh : ∀ y o q, s.objects y = some o → o.stage = .made q h → y = x)
    (hxp : ∀ q, (s.ctors q).target = some x → q = p)
    (hxh : ∀ k, (s.runs k).target = some x → k = h)
    (hfault : s'.fault = none) (hobjects : s'.objects = Function.update s.objects x (some o'))
    (hctors : ∀ q, q ≠ p → s'.ctors q = s.ctors q ∧
      (s.ctors q ≠ .idle → s'.tThreadName q = s.tThreadName q))
    (hruns : ∀ k, k ≠ h → s'.runs k = s.runs k ∧ s'.given k = s.given k ∧
      s'.threadId k = s.threadId k ∧ s'.tThread (.started k) = s.tThread (.started k))
    (hctor : ∀ y, (s'.ctors p).target = some y →
      y = x ∧ (o'.stage = .fresh p ∨ ∃ h, o'.stage = .made p h))
    (hrun : ∀ y, (s'.runs h).target = some y → y = x ∧ ∃ q, o'.stage = .made q h)
    (hdata : s'.ObjectData x o')
    (hthis : ∀ q, s'.tThread q = some x →
      o'.stage = .constructed ∨ ∃ q' k, o'.stage = .made q' k ∧ q = .started k)
    (hthat : ∀ q y, y ≠ x → s'.tThread q = some y → s.tThread q = some y)
    (hcall : s'.CallData h (s'.runs h)) (hgiven : s'.runs h ≠ .unborn → (s'.given h).isSome)
    (hborn : ∀ k, s'.runs k ≠ .unborn ↔ 1 ≤ k ∧ k ≤ s'.created)
    (hbusy : ∀ k, s'.ctors (.started k) ≠ .idle → ∃ cb, s'.runs k = .running cb) : s'.Wired := by
  have hself : s'.objects x = some o' := by simp [hobjects]
  have hother : ∀ {y}, y ≠ x → s'.objects y = s.objects y := by
    intro y hne
    simp [hobjects, hne]
  -- who constructs another object
  have hq : ∀ {y o q}, y ≠ x → s.objects y = some o →
      (o.stage = .fresh q ∨ ∃ k, o.stage = .made q k) → q ≠ p := by
    rintro y o q hne hy hst rfl
    exact hne (hp y (hs.target hy hst))
  refine ⟨hfault, fun q y hqy => ?_, fun k y hky => ?_, fun y o hy => ?_, fun q y hqy => ?_,
    fun k => ?_, hborn, fun k hk => ?_, hbusy⟩
  · by_cases heq : q = p
    · subst heq
      obtain ⟨rfl, hst⟩ := hctor y hqy
      exact ⟨o', hself, hst⟩
    · rw [(hctors q heq).1] at hqy
      obtain ⟨o, hy, hst⟩ := hs.ctor q y hqy
      have hne : y ≠ x := by
        rintro rfl
        exact heq (hxp q hqy)
      exact ⟨o, (hother hne).trans hy, hst⟩
  · by_cases heq : k = h
    · subst heq
      obtain ⟨rfl, q, hst⟩ := hrun y hky
      exact ⟨o', q, hself, hst⟩
    · rw [(hruns k heq).1] at hky
      obtain ⟨o, q, hy, hst⟩ := hs.run k y hky
      have hne : y ≠ x := by
        rintro rfl
        exact heq (hxh k hky)
      exact ⟨o, q, (hother hne).trans hy, hst⟩
  · by_cases heq : y = x
    · subst heq
      obtain rfl := Option.some.inj (hself.symm.trans hy)
      exact hdata
    · rw [hother heq] at hy
      refine (hs.object y o hy).of_frame (fun q hst => ?_) fun q k hst => ?_
      · obtain ⟨hc, hn⟩ := hctors q (hq heq hy hst)
        exact ⟨hc, hn (hs.not_idle hy hst)⟩
      · refine hruns k ?_
        rintro rfl
        exact heq (hh y o q hy hst)
  · by_cases heq : y = x
    · subst heq
      exact ⟨o', hself, hthis q hqy⟩
    · obtain ⟨o, hy, hst⟩ := hs.this q y (hthat q y heq hqy)
      exact ⟨o, (hother heq).trans hy, hst⟩
  · by_cases heq : k = h
    · exact heq ▸ hcall
    · obtain ⟨hr, hg, -⟩ := hruns k heq
      rw [hr]
      exact (hs.callback k).of_frame hg
  · by_cases heq : k = h
    · exact heq ▸ hgiven (heq ▸ hk)
    · rw [(hruns k heq).2.1]
      exact hs.given k ((hruns k heq).1 ▸ hk)

lemma Wired.stage_of_ctor {o : ThreadObject} (hs : s.Wired) (hx : s.objects x = some o)
    (hpc : (s.ctors p).target = some x) :
    o.stage = .fresh p ∨ ∃ h, o.stage = .made p h := by
  obtain ⟨o', hx', hst⟩ := hs.ctor p x hpc
  obtain rfl := Option.some.inj (hx'.symm.trans hx)
  exact hst

lemma Wired.stage_of_run {o : ThreadObject} (hs : s.Wired) (hx : s.objects x = some o)
    (hpc : (s.runs h).target = some x) : ∃ p, o.stage = .made p h := by
  obtain ⟨o', p, hx', hst⟩ := hs.run h x hpc
  obtain rfl := Option.some.inj (hx'.symm.trans hx)
  exact ⟨p, hst⟩

/-- Nobody but thread `p` constructs the object that it is building. -/
lemma Wired.ctor_inj {q : Pthread} (hs : s.Wired) (hp : (s.ctors p).target = some x)
    (hq : (s.ctors q).target = some x) : q = p := by
  obtain ⟨o, hx, hst⟩ := hs.ctor p x hp
  rcases hs.stage_of_ctor hx hq with hst' | ⟨k, hst'⟩ <;> rcases hst with hst | ⟨h, hst⟩ <;>
    simp_all

/-- Nobody but the thread of an object that is being built works on it in `Run`. -/
lemma Wired.run_inj {k : ℕ} {o : ThreadObject} (hs : s.Wired) (hx : s.objects x = some o)
    (hst : o.stage = .made p h) (hk : (s.runs k).target = some x) : k = h := by
  obtain ⟨q, hst'⟩ := hs.stage_of_run hx hk
  simp_all

lemma Wired.unborn (hs : s.Wired) : s.runs (s.created + 1) = .unborn := by
  by_contra hne
  exact absurd ((hs.born _).mp hne).2 (by omega)

lemma Wired.idle_of_target (hs : s.Wired) (hpc : (s.runs h).target.isSome) :
    s.ctors (.started h) = .idle := by
  by_contra hne
  obtain ⟨cb, hrun⟩ := hs.busy h hne
  simp [hrun, RunPc.target] at hpc

/-- The thread `h` of the object at `x` makes a step in `Run` that works on it. -/
lemma Wired.runs_on {o : ThreadObject} {pc₀ : RunPc} (o' : ThreadObject) (pc : RunPc)
    (name : String) (hs : s.Wired) (hpc₀ : s.runs h = pc₀) (hearly : pc₀.target = some x)
    (hx : s.objects x = some o)
    (hkeep : o'.stage = o.stage ∧ o'.joinable = o.joinable ∧ o'.thread = o.thread)
    (hborn : pc ≠ .unborn) (hpc : ∀ y, pc.target = some y → y = x) (hcall : s.CallData h pc)
    (hs' : s' = { s with
      objects := Function.update s.objects x (some o')
      runs := Function.update s.runs h pc
      tThread := Function.update s.tThread (.started h) (some x)
      tThreadName := Function.update s.tThreadName (.started h) name })
    (hdata : s'.RunData x h o' pc) : s'.Wired := by
  subst hpc₀
  obtain ⟨p, hst⟩ := hs.stage_of_run hx hearly
  obtain ⟨hstage, hjoin, hthread⟩ := hkeep
  have hidle := hs.idle_of_target (Option.isSome_of_mem hearly)
  have hpx := hs.target hx (.inr ⟨h, hst⟩)
  have hrunning : ∀ cb, s.runs h ≠ .running cb := by
    rintro cb hrun
    simp [hrun, RunPc.target] at hearly
  refine hs.move (p := p) (h := h) (x := x)
    (fun y hy => Option.some.inj (hy.symm.trans hpx))
    (fun y o₁ q hy hst₁ => hs.single hx hst hy hst₁) (fun q hq => hs.ctor_inj hpx hq)
    (fun k hk => hs.run_inj hx hst hk) (hs' ▸ hs.fault) (by rw [hs']) (fun q hq => ?_)
    (fun k hk => ?_) (fun y hy => ?_) (fun y hy => ?_) ?_ (fun q hq => ?_) (fun q y hne hq => ?_)
    ?_ (fun _ => ?_) (fun k => ?_) fun k hk => ?_
  all_goals subst hs'
  · refine ⟨rfl, fun hne => Function.update_of_ne ?_ _ _⟩
    rintro rfl
    exact hne hidle
  · exact ⟨Function.update_of_ne hk _ _, rfl, rfl, Function.update_of_ne (by simpa using hk) _ _⟩
  · exact ⟨Option.some.inj (hy.symm.trans hpx), .inr ⟨h, hstage.trans hst⟩⟩
  · exact ⟨hpc y (by simpa using hy), p, hstage.trans hst⟩
  · have hobject := hs.object x o hx
    simp only [ObjectData, hst, hstage, hjoin, hthread, Function.update_self] at hobject ⊢
    exact ⟨hobject.1, hobject.2.1, hdata⟩
  · refine .inr ⟨p, h, hstage.trans hst, ?_⟩
    by_contra hne
    obtain ⟨o₁, hx₁, hst₁⟩ := hs.this q x (by simpa [hne] using hq)
    obtain rfl := Option.some.inj (hx₁.symm.trans hx)
    rcases hst₁ with hst₁ | ⟨q', k, hst₁, rfl⟩
    · simp [hst] at hst₁
    · simp_all
  · by_cases heq : q = .started h
    · subst heq
      exact absurd (by simpa using hq.symm) hne
    · simpa [heq] using hq
  · simp only [Function.update_self]
    exact hcall.of_frame rfl
  · exact hs.given h fun hun => by simp [hun, RunPc.target] at hearly
  · by_cases heq : k = h
    · subst heq
      have := (hs.born k).mp fun hun => by simp [hun, RunPc.target] at hearly
      simp [hborn, this]
    · simpa [heq] using hs.born k
  · obtain ⟨cb, hrun⟩ := hs.busy k hk
    have hne : k ≠ h := by
      rintro rfl
      exact hrunning cb hrun
    exact ⟨cb, by simpa [hne] using hrun⟩

/-- Thread `p` makes a step on the object at `x` in its program or in a constructor. -/
lemma Wired.builds {o' : ThreadObject} {pc : CtorPc} {name : String} (hs : s.Wired)
    (hp : ∀ y, (s.ctors p).target = some y → y = x)
    (hh : ∀ y o q, s.objects y = some o → o.stage = .made q h → y = x)
    (hxp : ∀ q, (s.ctors q).target = some x → q = p)
    (hxh : ∀ k, (s.runs k).target = some x → k = h ∧ ∃ q, o'.stage = .made q h)
    (hpc : ∀ y, pc.target = some y → y = x ∧ (o'.stage = .fresh p ∨ ∃ h, o'.stage = .made p h))
    (hthis : ∀ q, s.tThread q = some x →
      o'.stage = .constructed ∨ ∃ q' k, o'.stage = .made q' k ∧ q = .started k)
    (hbusy : ∀ k, p = .started k → pc ≠ .idle → ∃ cb, s.runs k = .running cb)
    (hs' : s' = { s with
      objects := Function.update s.objects x (some o')
      ctors := Function.update s.ctors p pc
      tThreadName := Function.update s.tThreadName p name })
    (hdata : s'.ObjectData x o') : s'.Wired := by
  refine hs.move (p := p) (h := h) (x := x) hp hh hxp (fun k hk => (hxh k hk).1)
    (hs' ▸ hs.fault) (by rw [hs']) (fun q hq => ?_) (fun k _ => ?_) (fun y hy => ?_)
    (fun y hy => ?_) hdata (fun q hq => ?_) (fun q y _ hq => ?_) ?_ ?_ (fun k => ?_)
    fun k hk => ?_
  all_goals subst hs'
  · exact ⟨Function.update_of_ne hq _ _, fun _ => Function.update_of_ne hq _ _⟩
  · exact ⟨rfl, rfl, rfl, rfl⟩
  · exact hpc y (by simpa using hy)
  · -- nothing but the object at `x` is in the hands of thread `h`
    obtain ⟨o, q, hy', hst⟩ := hs.run h y hy
    obtain rfl := hh y o q hy' hst
    exact ⟨rfl, (hxh h hy).2⟩
  · exact hthis q hq
  · exact hq
  · exact (hs.callback h).of_frame rfl
  · exact hs.given h
  · exact hs.born k
  · by_cases heq : Pthread.started k = p
    · refine hbusy k heq.symm fun hidle => hk ?_
      simp [heq, hidle]
    · exact hs.busy k (by simpa [heq] using hk)

/-- A new object at the address `x`. -/
lemma Wired.places (o' : ThreadObject) (pc : CtorPc) (hs : s.Wired) (hfree : s.free p = true)
    (hx : s.objects x = none)
    (hpc : pc = .setName x ∧ o'.stage = .fresh p ∨ pc = .idle ∧ o'.stage = .constructed)
    (hdata : ((s.setCtor p pc).setObject x o').ObjectData x o') :
    ((s.setCtor p pc).setObject x o').Wired := by
  simp only [free, Bool.and_eq_true, decide_eq_true_eq] at hfree
  have hs' : (s.setCtor p pc).setObject x o' = { s with
      objects := Function.update s.objects x (some o')
      ctors := Function.update s.ctors p pc
      tThreadName := Function.update s.tThreadName p (s.tThreadName p) } := by
    simp [setCtor, setObject]
  refine hs.builds (p := p) (h := s.created + 1) (x := x) (fun y hy => ?_)
    (fun y o q hy hst => ?_) (fun q hq => ?_) (fun k hk => ?_) (fun y hy => ?_)
    (fun q hq => ?_) (fun k hk _ => ?_) hs' hdata
  · simp [hfree.1, CtorPc.target] at hy
  · have hrun := hs.runData hy hst
    rw [hs.unborn] at hrun
    exact hrun.elim
  · obtain ⟨o, hx', -⟩ := hs.ctor q x hq
    simp [hx] at hx'
  · obtain ⟨o, q, hx', -⟩ := hs.run k x hk
    simp [hx] at hx'
  · rcases hpc with ⟨rfl, hst⟩ | ⟨rfl, -⟩
    · exact ⟨(Option.some.inj hy).symm, .inl hst⟩
    · simp [CtorPc.target] at hy
  · obtain ⟨o, hx', -⟩ := hs.this q x hq
    simp [hx] at hx'
  · subst hk
    cases hrun : s.runs k <;> simp [hrun] at hfree ⊢

/-- The handle `h` belongs to the object at `x`, or to no object yet. -/
lemma Wired.belongs {o : ThreadObject} (hs : s.Wired) (hx : s.objects x = some o)
    (hst : o.stage = .fresh p ∨ ∃ h, o.stage = .made p h) :
    ∃ h, (o.stage = .fresh p ∧ h = s.created + 1 ∨ o.stage = .made p h) ∧
      (∀ y o₁ q, s.objects y = some o₁ → o₁.stage = .made q h → y = x) ∧
      ∀ k, (s.runs k).target = some x → k = h ∧ o.stage = .made p h := by
  rcases hst with hst | ⟨h, hst⟩
  · refine ⟨s.created + 1, .inl ⟨hst, rfl⟩, fun y o₁ q hy hst₁ => ?_, fun k hk => ?_⟩
    · have hrun := hs.runData hy hst₁
      rw [hs.unborn] at hrun
      exact hrun.elim
    · obtain ⟨q, hst'⟩ := hs.stage_of_run hx hk
      simp [hst] at hst'
  · exact ⟨h, .inr hst, fun y o₁ q hy hst₁ => hs.single hx hst hy hst₁,
      fun k hk => ⟨hs.run_inj hx hst hk, hst⟩⟩

/-- Thread `p` makes a step in the constructor of the object at `x` before the last one. -/
lemma Wired.goes_on {o : ThreadObject} {pc₀ : CtorPc} (o' : ThreadObject) (pc : CtorPc)
    (name : String) (hs : s.Wired) (hpc₀ : s.ctors p = pc₀) (hearly : pc₀.target = some x)
    (hx : s.objects x = some o)
    (hpc : pc.target = some x) (hstage : o'.stage = o.stage)
    (hs' : s' = { s with
      objects := Function.update s.objects x (some o')
      ctors := Function.update s.ctors p pc
      tThreadName := Function.update s.tThreadName p name })
    (hdata : s'.ObjectData x o') : s'.Wired := by
  subst hpc₀
  have hst := hs.stage_of_ctor hx hearly
  obtain ⟨h, -, hh, hxh⟩ := hs.belongs hx hst
  refine hs.builds (p := p) (h := h) (fun y hy => Option.some.inj (hy.symm.trans hearly)) hh
    (fun q hq => hs.ctor_inj hearly hq) (fun k hk => ?_) (fun y hy => ?_) (fun q hq => ?_)
    (fun k hk _ => ?_) hs' hdata
  · obtain ⟨rfl, hmade⟩ := hxh k hk
    exact ⟨rfl, p, hstage.trans hmade⟩
  · exact ⟨Option.some.inj (hy.symm.trans hpc), hstage ▸ hst⟩
  · obtain ⟨o₁, hx₁, hst₁⟩ := hs.this q x hq
    obtain rfl := Option.some.inj (hx₁.symm.trans hx)
    exact hstage ▸ hst₁
  · subst hk
    refine hs.busy k fun hidle => ?_
    simp [hidle, CtorPc.target] at hearly

/-- Behind the `Post`, `Run` is done with the object. -/
lemma RunData.posted {o : ThreadObject} {pc : RunPc} (hdata : s.RunData x h o pc)
    (hpos : 0 < o.semaphore) :
    o.id = s.threadId h ∧ o.cb = none ∧ o.semaphore = 1 ∧ pc.target = none := by
  cases pc with
  | unborn => exact hdata.elim
  | setThis y => exact absurd hdata.2.2 (Nat.ne_of_gt hpos)
  | setThreadName y | setId y => exact absurd hdata.2.2.2 (Nat.ne_of_gt hpos)
  | takeCb y => exact absurd hdata.2.2.2.2 (Nat.ne_of_gt hpos)
  | post y cb => exact absurd hdata.2.2.2.2.2 (Nat.ne_of_gt hpos)
  | call | running | returned => exact ⟨hdata.2.1, hdata.2.2.1, hdata.2.2.2, rfl⟩

/-- The members of an object whose thread has not been created. -/
lemma Wired.fresh {o : ThreadObject} (hs : s.Wired)
    (hpc : s.ctors p = .setName x ∨ ∃ old, s.ctors p = .create x old)
    (hx : s.objects x = some o) :
    o.stage = .fresh p ∧ o.joinable = true ∧ o.semaphore = 0 ∧ o.cb.isSome = true ∧
      o.name.isEmpty = false := by
  have hdata := hs.object x o hx
  have htarget : (s.ctors p).target = some x := by
    rcases hpc with hpc | ⟨old, hpc⟩ <;> simp [hpc, CtorPc.target]
  rcases hs.stage_of_ctor hx htarget with hst | ⟨h, hst⟩
  · simp only [ObjectData, hst] at hdata
    exact ⟨hst, hdata.1, hdata.2.1, hdata.2.2.1, hdata.2.2.2.1⟩
  · rcases hpc with hpc | ⟨old, hpc⟩ <;> simp [ObjectData, hst, hpc] at hdata

/-- The members of an object whose thread has just been created. -/
lemma Wired.storing {o : ThreadObject} (hs : s.Wired) (hpc : s.ctors p = .store x h)
    (hx : s.objects x = some o) :
    o.stage = .made p h ∧ o.joinable = true ∧ s.RunData x h o (s.runs h) := by
  have hdata := hs.object x o hx
  have htarget : (s.ctors p).target = some x := by simp [hpc, CtorPc.target]
  rcases hs.stage_of_ctor hx htarget with hst | ⟨k, hst⟩
  · simp [ObjectData, hst, hpc] at hdata
  · simp only [ObjectData, hst, hpc] at hdata
    obtain ⟨hjoin, hk, hrun⟩ := hdata
    obtain rfl : h = k := by simpa using hk
    exact ⟨hst, hjoin, hrun⟩

/-- The members of an object whose thread has made its `Post`. -/
lemma Wired.posted {o : ThreadObject} (hs : s.Wired) (hpc : s.ctors p = .wait x)
    (hx : s.objects x = some o) (hpos : 0 < o.semaphore) :
    ∃ h, o.stage = .made p h ∧ (o.joinable = true ∧ o.thread = h) ∧
      o.id = s.threadId h ∧ o.cb = none ∧ o.semaphore = 1 ∧ (s.runs h).target = none := by
  have hdata := hs.object x o hx
  have htarget : (s.ctors p).target = some x := by simp [hpc, CtorPc.target]
  rcases hs.stage_of_ctor hx htarget with hst | ⟨h, hst⟩
  · simp [ObjectData, hst, hpc] at hdata
  · simp only [ObjectData, hst, hpc] at hdata
    obtain ⟨hjoin, hthread, hrun⟩ := hdata
    exact ⟨h, hst, ⟨hjoin, by simpa using hthread⟩, hrun.posted hpos⟩

/-- The constructor of the object at `x` returns. -/
lemma Wired.returns {o : ThreadObject} (hs : s.Wired) (hpc : s.ctors p = .wait x)
    (hx : s.objects x = some o) (hpos : 0 < o.semaphore) :
    ((s.setCtor p .idle).setObject x
      { o with semaphore := o.semaphore - 1, stage := .constructed }).Wired := by
  have hearly : (s.ctors p).target = some x := by simp [hpc, CtorPc.target]
  obtain ⟨h, hmade, -, -, hcb, hone, hdone⟩ := hs.posted hpc hx hpos
  have hs' : (s.setCtor p .idle).setObject x
      { o with semaphore := o.semaphore - 1, stage := .constructed } = { s with
      objects := Function.update s.objects x
        (some { o with semaphore := o.semaphore - 1, stage := .constructed })
      ctors := Function.update s.ctors p .idle
      tThreadName := Function.update s.tThreadName p (s.tThreadName p) } := by
    simp [setCtor, setObject]
  refine hs.builds (fun y hy => Option.some.inj (hy.symm.trans hearly))
    (fun y o' q hy hst => hs.single hx hmade hy hst) (fun q hq => hs.ctor_inj hearly hq)
    (fun k hk => ?_) (fun y hy => ?_) (fun q hq => .inl rfl) (fun k _ hne => absurd rfl hne) hs' ?_
  · obtain rfl := hs.run_inj hx hmade hk
    simp [hdone] at hk
  · simp [CtorPc.target] at hy
  · exact ⟨hcb, by simp [hone]⟩

/-- `pthread_create`, in the constructor of the object at `x`. -/
lemma Wired.creates {o : ThreadObject} {old : String} {tid : ℤ} (hs : s.Wired)
    (hpc : s.ctors p = .create x old) (hx : s.objects x = some o) :
    Wired { ((s.setCtor p (.store x (s.created + 1))).setRun (s.created + 1) (.setThis x)).setObject
        x { o with stage := .made p (s.created + 1) } with
      created := s.created + 1
      threadId := Function.update s.threadId (s.created + 1) tid
      given := Function.update s.given (s.created + 1) o.cb } := by
  have hearly : (s.ctors p).target = some x := by simp [hpc, CtorPc.target]
  obtain ⟨hfresh, hjoin, hsem, hcb, -⟩ := hs.fresh (.inr ⟨old, hpc⟩) hx
  obtain ⟨h, hst, hh, hxh⟩ := hs.belongs hx (.inl hfresh)
  obtain rfl : h = s.created + 1 := by
    rcases hst with ⟨-, rfl⟩ | hst
    · rfl
    · simp [hfresh] at hst
  refine hs.move (fun y hy => Option.some.inj (hy.symm.trans hearly)) hh
    (fun q hq => hs.ctor_inj hearly hq) (fun k hk => (hxh k hk).1) hs.fault rfl
    (fun q hq => ⟨Function.update_of_ne hq _ _, fun _ => rfl⟩)
    (fun k hk => ⟨Function.update_of_ne hk _ _, Function.update_of_ne hk _ _,
      Function.update_of_ne hk _ _, rfl⟩) (fun y hy => ?_) (fun y hy => ?_) ?_ (fun q hq => ?_)
    (fun q y _ hq => hq) ?_ (fun _ => ?_) (fun k => ?_) fun k hk => ?_
  · exact ⟨by simpa [setObject, setRun, setCtor, CtorPc.target, eq_comm] using hy, .inr ⟨_, rfl⟩⟩
  · exact ⟨by simpa [setObject, setRun, setCtor, RunPc.target, eq_comm] using hy, p, rfl⟩
  · simp [ObjectData, RunData, setObject, setRun, setCtor, hjoin, hsem]
  · obtain ⟨o₁, hx₁, hst₁⟩ := hs.this q x hq
    obtain rfl := Option.some.inj (hx₁.symm.trans hx)
    simp [hfresh] at hst₁
  · simp [setObject, setRun, CallData]
  · simpa using hcb
  · by_cases heq : k = s.created + 1
    · simp [setObject, setRun, heq]
    · have := hs.born k
      simp only [setObject, setRun, setCtor, ne_eq, heq, not_false_eq_true, Function.update_of_ne]
      rw [← ne_eq, this]
      omega
  · -- a new thread constructs nothing
    have hne : k ≠ s.created + 1 := by
      rintro rfl
      have hbusy := hs.busy (s.created + 1)
      by_cases heq : Pthread.started (s.created + 1) = p
      · obtain ⟨cb, hrun⟩ := hbusy (by simp [heq, hpc])
        simp [hs.unborn] at hrun
      · obtain ⟨cb, hrun⟩ := hbusy (by simpa [setObject, setRun, setCtor, heq] using hk)
        simp [hs.unborn] at hrun
    obtain ⟨cb, hrun⟩ := hs.busy k fun hidle => hk <| by
      have : Pthread.started k ≠ p := by
        rintro rfl
        simp [hpc] at hidle
      simpa [setObject, setRun, setCtor, this] using hidle
    exact ⟨cb, by simpa [setObject, setRun, setCtor, hne] using hrun⟩

/-- A step behind which every constructor and every object stands where it stood. -/
lemma Wired.stays (hs : s.Wired) (hctors : s'.ctors = s.ctors) (hthis : s'.tThread = s.tThread)
    (hborn : s'.created = s.created) (hgiven : s'.given = s.given) (hfault : s'.fault = s.fault)
    (hstage : ∀ x, (s'.objects x).map (·.stage) = (s.objects x).map (·.stage))
    (htarget : ∀ h, (s'.runs h).target = (s.runs h).target)
    (hunborn : ∀ h, s'.runs h = .unborn ↔ s.runs h = .unborn)
    (hbusy : ∀ h, s.ctors (.started h) ≠ .idle → s'.runs h = s.runs h)
    (hdata : ∀ x o, s'.objects x = some o → s'.ObjectData x o)
    (hcall : ∀ h, s'.CallData h (s'.runs h)) : s'.Wired := by
  -- the object at an address is at the stage of the one before
  have hmove : ∀ {x o} (P : ObjectStage → Prop), s.objects x = some o → P o.stage →
      ∃ o', s'.objects x = some o' ∧ P o'.stage := by
    intro x o P hx hP
    have heq := hstage x
    rw [hx] at heq
    obtain ⟨o', hx', hst⟩ := Option.map_eq_some_iff.mp heq
    exact ⟨o', hx', hst ▸ hP⟩
  refine ⟨hfault.trans hs.fault, fun p x hp => ?_, fun h x hh => ?_, hdata, fun p x hp => ?_, hcall,
    fun h => ?_, fun h hh => ?_, fun h hh => ?_⟩
  · obtain ⟨o, hx, hst⟩ := hs.ctor p x (hctors ▸ hp)
    exact hmove (fun st => st = .fresh p ∨ ∃ h, st = .made p h) hx hst
  · obtain ⟨o, p, hx, hst⟩ := hs.run h x (htarget h ▸ hh)
    obtain ⟨o', hx', hst'⟩ := hmove (fun st => st = .made p h) hx hst
    exact ⟨o', p, hx', hst'⟩
  · obtain ⟨o, hx, hst⟩ := hs.this p x (hthis ▸ hp)
    exact hmove (fun st => st = .constructed ∨ ∃ q h, st = .made q h ∧ p = .started h) hx hst
  · rw [hborn, ← hs.born h, ne_eq, hunborn h]
  · rw [hgiven]
    exact hs.given h fun hun => hh ((hunborn h).mpr hun)
  · rw [hctors] at hh
    rw [hbusy h hh]
    exact hs.busy h hh

/-- The members of the object that thread `h` works on in `Run`. -/
lemma Wired.works {o : ThreadObject} {pc : RunPc} (hs : s.Wired) (hpc : s.runs h = pc)
    (htarget : pc.target = some x) (hx : s.objects x = some o) : s.RunData x h o pc := by
  subst hpc
  obtain ⟨p, hst⟩ := hs.stage_of_run hx htarget
  exact hs.runData hx hst

lemma Wired.idle_of_free (hfree : s.free p = true) : s.ctors p = .idle := by
  simp only [free, Bool.and_eq_true, decide_eq_true_eq] at hfree
  exact hfree.1

/-- The members of the objects do not depend on the name that a thread in its program goes by. -/
lemma Wired.object_named {o : ThreadObject} {name : String} (hs : s.Wired)
    (hfree : s.free p = true) (hx : s.objects x = some o) :
    ObjectData { s with tThreadName := Function.update s.tThreadName p name } x o := by
  refine (hs.object x o hx).of_frame (fun q hst => ⟨rfl, Function.update_of_ne ?_ _ _⟩)
    fun _ _ _ => ⟨rfl, rfl, rfl, rfl⟩
  rintro rfl
  exact hs.not_idle hx hst (Wired.idle_of_free hfree)

/-- Only the constructor needs the name of an object. -/
lemma ObjectData.renamed {o : ThreadObject} {name : String} (hdata : s.ObjectData x o)
    (hst : ∀ p, o.stage ≠ .fresh p) : s.ObjectData x { o with name := name } := by
  unfold ObjectData at hdata ⊢
  cases hstage : o.stage with
  | fresh p => exact absurd hstage (hst p)
  | made p h =>
    simp only [hstage] at hdata ⊢
    exact ⟨hdata.1, hdata.2.1, hdata.2.2.of_frame rfl rfl rfl ⟨rfl, rfl, rfl⟩⟩
  | constructed => simpa only [hstage] using hdata

lemma Wired.setName {name : String} (hs : s.Wired) (hfree : s.free p = true) :
    (s.setName p name).Wired := by
  unfold ThreadStart.setName
  split
  · exact hs
  cases hp : s.tThread p with
  | none =>
    exact hs.stays rfl rfl rfl rfl rfl (fun _ => rfl) (fun _ => rfl) (fun _ => .rfl)
      (fun _ _ => rfl) (fun x o hx => hs.object_named hfree hx) fun h =>
        (hs.callback h).of_frame rfl
  | some x =>
    obtain ⟨o, hx, hst⟩ := hs.this p x hp
    simp only [rename, hx]
    refine hs.stays rfl rfl rfl rfl rfl (fun y => ?_) (fun _ => rfl) (fun _ => .rfl)
      (fun _ _ => rfl) (fun y o' hy => ?_) fun h => (hs.callback h).of_frame rfl
    · by_cases heq : y = x <;> simp [setObject, heq, hx]
    · have hframe : ∀ {o₁}, ObjectData { s with
          tThreadName := Function.update s.tThreadName p name } y o₁ →
          ObjectData { s.setObject x { o with name := name } with
            tThreadName := Function.update s.tThreadName p name } y o₁ := fun hdata =>
        hdata.of_frame (fun _ _ => ⟨rfl, rfl⟩) fun _ _ _ => ⟨rfl, rfl, rfl, rfl⟩
      by_cases heq : y = x
      · subst heq
        obtain rfl : { o with name := name } = o' := by simpa [setObject] using hy
        refine hframe ((hs.object_named hfree hx).renamed fun q hst' => ?_)
        rcases hst with hst | ⟨q', h, hst, -⟩ <;> simp [hst] at hst'
      · exact hframe (hs.object_named hfree (by simpa [setObject, heq] using hy))

lemma Wired.swaps {y : ℕ} {o o' : ThreadObject} (hs : s.Wired) (hx : s.objects x = some o)
    (hy : s.objects y = some o') (ho : o.stage = .constructed) (ho' : o'.stage = .constructed) :
    (s.swap x y o o').Wired := by
  have hdata := hs.object x o hx
  have hdata' := hs.object y o' hy
  simp only [ObjectData, ho, ho'] at hdata hdata'
  refine hs.stays rfl rfl rfl rfl rfl (fun z => ?_) (fun _ => rfl) (fun _ => .rfl) (fun _ _ => rfl)
    (fun z o₁ hz => ?_) fun h => (hs.callback h).of_frame rfl
  · by_cases hzy : z = y
    · simp [swap, setObject, hzy, hy, ho, ho']
    · by_cases hzx : z = x
      · subst hzx
        simp [swap, setObject, hzy, hx, ho, ho']
      · simp [swap, setObject, hzy, hzx]
  · by_cases hzy : z = y
    · obtain rfl : { o with cb := o'.cb } = o₁ := by simpa [swap, setObject, hzy] using hz
      simp [ObjectData, ho, hdata, hdata']
    · by_cases hzx : z = x
      · subst hzx
        obtain rfl : { o' with cb := o.cb } = o₁ := by simpa [swap, setObject, hzy] using hz
        simp [ObjectData, ho', hdata, hdata']
      · have hz' : s.objects z = some o₁ := by simpa [swap, setObject, hzy, hzx] using hz
        exact (hs.object z o₁ hz').of_frame (fun _ _ => ⟨rfl, rfl⟩) fun _ _ _ =>
          ⟨rfl, rfl, rfl, rfl⟩

/-- The callback of thread `h` is called, or returns. -/
lemma Wired.calls {pc : RunPc} {called : List (ℕ × ℕ)} (hs : s.Wired)
    (hpc : (∃ cb, s.runs h = .call (some cb) ∧ pc = .running cb) ∨
      (∃ cb, s.runs h = .running cb) ∧ s.free (.started h) = true ∧ pc = .returned) :
    Wired { s.setRun h pc with called := called } := by
  have hnone : (s.runs h).target = none ∧ pc.target = none ∧ s.runs h ≠ .unborn ∧ pc ≠ .unborn := by
    rcases hpc with ⟨cb, hpc, rfl⟩ | ⟨⟨cb, hpc⟩, -, rfl⟩ <;> simp [hpc, RunPc.target]
  refine hs.stays rfl rfl rfl rfl rfl (fun _ => rfl) (fun k => ?_) (fun k => ?_) (fun k hk => ?_)
    (fun x o hx => ?_) fun k => ?_
  · by_cases heq : k = h <;> simp [setRun, heq, hnone]
  · by_cases heq : k = h <;> simp [setRun, heq, hnone]
  · refine Function.update_of_ne ?_ _ _
    rintro rfl
    rcases hpc with ⟨cb, hpc, -⟩ | ⟨-, hfree, -⟩
    · obtain ⟨cb', hrun⟩ := hs.busy k hk
      simp [hpc] at hrun
    · exact hk (Wired.idle_of_free hfree)
  · have hobject := hs.object x o hx
    unfold ObjectData at hobject ⊢
    cases hst : o.stage with
    | fresh p =>
      simp only [hst] at hobject
      exact hobject
    | made p k =>
      simp only [hst] at hobject ⊢
      refine ⟨hobject.1, hobject.2.1, ?_⟩
      have hrun := hobject.2.2
      by_cases heq : k = h
      · subst heq
        rcases hpc with ⟨cb, hpc, rfl⟩ | ⟨⟨cb, hpc⟩, -, rfl⟩ <;>
          simpa [hpc, setRun, RunData] using hrun
      · simp only [setRun, ne_eq, heq, not_false_eq_true, Function.update_of_ne]
        exact hrun.of_frame rfl rfl rfl ⟨rfl, rfl, rfl⟩
    | constructed => simpa only [hst] using hobject
  · by_cases heq : k = h
    · subst heq
      rcases hpc with ⟨cb, hpc, rfl⟩ | ⟨-, -, rfl⟩
      · have hcall := hs.callback k
        rw [hpc] at hcall
        simpa [setRun, CallData] using hcall.symm
      · simp [setRun, CallData]
    · simp only [setRun, ne_eq, heq, not_false_eq_true, Function.update_of_ne]
      exact (hs.callback k).of_frame rfl

/-- A step keeps the invariant. -/
lemma Effect.wired (h : Effect s a s') (hs : s.Wired) : s'.Wired := by
  cases h with
  | constructDefault hfree hx =>
    have hwired := hs.places {} .idle hfree hx (.inr ⟨rfl, rfl⟩) ⟨rfl, rfl⟩
    rwa [setCtor, ← Wired.idle_of_free hfree, Function.update_eq_self] at hwired
  | @construct p x cb name hfree hx =>
    refine hs.places (init p name cb) (.setName x) hfree hx (.inl ⟨rfl, rfl⟩)
      ⟨rfl, rfl, rfl, ?_, .inl ?_⟩
    · by_cases hname : name.isEmpty <;> simp [init, hname]
    · simp [setObject, setCtor]
  | setName hfree => exact hs.setName hfree
  | getName hfree => exact hs
  | swap hfree hx hy ho ho' => exact hs.swaps hx hy ho ho'
  | @ctorName p x o tid hpc hx =>
    obtain ⟨hst, hjoin, hsem, hcb, hname⟩ := hs.fresh (.inl hpc) hx
    refine hs.goes_on o (.create x (s.tThreadName p)) o.name hpc rfl hx rfl rfl
      (by simp [setCtor, ← hx]) ?_
    simp only [ObjectData, hst]
    exact ⟨hjoin, hsem, hcb, hname, .inr ⟨s.tThreadName p, by simp [setCtor], by simp⟩⟩
  | create hpc hx => exact hs.creates hpc hx
  | @store p x h o tid hpc hx =>
    obtain ⟨hst, hjoin, hrun⟩ := hs.storing hpc hx
    refine hs.goes_on { o with thread := h } (.wait x) (s.tThreadName p) hpc rfl hx rfl rfl
      (by simp [setCtor, setObject]) ?_
    simp only [ObjectData, hst]
    exact ⟨hjoin, .inr ⟨by simp [setCtor, setObject], trivial⟩,
      hrun.of_frame rfl rfl rfl ⟨rfl, rfl, rfl⟩⟩
  | wait hpc hx hpos => exact hs.returns hpc hx hpos
  | @setThis h x hpc =>
    obtain ⟨o, p, hx, -⟩ := hs.run h x (by simp [hpc, RunPc.target])
    have hdata := hs.works hpc rfl hx
    refine hs.runs_on o (.setThreadName x) (s.tThreadName (.started h)) hpc rfl hx ⟨rfl, rfl, rfl⟩
      (by simp) (fun y hy => (Option.some.inj hy).symm) trivial ?_ ⟨rfl, by simp, hdata.2⟩
    simp [setRun, ← hx]
  | @setThreadName h x o hpc hx =>
    have hdata := hs.works hpc rfl hx
    refine hs.runs_on o (.setId x) o.name hpc rfl hx ⟨rfl, rfl, rfl⟩ (by simp)
      (fun y hy => (Option.some.inj hy).symm) trivial ?_ hdata
    simp [setRun, ← hx, ← hdata.2.1]
  | @setId h x o hpc hx =>
    have hdata := hs.works hpc rfl hx
    refine hs.runs_on { o with id := s.threadId h } (.takeCb x) (s.tThreadName (.started h)) hpc rfl
      hx ⟨rfl, rfl, rfl⟩ (by simp) (fun y hy => (Option.some.inj hy).symm) trivial ?_
      ⟨rfl, hdata.2.1, rfl, hdata.2.2⟩
    simp [setRun, setObject, ← hdata.2.1]
  | @takeCb h x o hpc hx =>
    have hdata := hs.works hpc rfl hx
    refine hs.runs_on { o with cb := none } (.post x o.cb) (s.tThreadName (.started h)) hpc rfl hx
      ⟨rfl, rfl, rfl⟩ (by simp) (fun y hy => (Option.some.inj hy).symm) trivial ?_
      ⟨rfl, hdata.2.1, hdata.2.2.1, rfl, hdata.2.2.2⟩
    simp [setRun, setObject, ← hdata.2.1]
  | @post h x cb o hpc hx =>
    have hdata := hs.works hpc rfl hx
    refine hs.runs_on { o with semaphore := o.semaphore + 1 } (.call cb)
      (s.tThreadName (.started h)) hpc rfl hx ⟨rfl, rfl, rfl⟩ (by simp)
      (fun y hy => by simp [RunPc.target] at hy) hdata.2.2.2.2.1 ?_
      ⟨hdata.2.1, hdata.2.2.1, hdata.2.2.2.1, by simp [hdata.2.2.2.2.2]⟩
    simp [setRun, setObject, ← hdata.2.1]
  | call hpc => exact hs.calls (.inl ⟨_, hpc, rfl⟩)
  | noObject hpc hx =>
    obtain ⟨o, p, hx', -⟩ := hs.run _ _ hpc
    simp [hx] at hx'
  | @badCall h hpc =>
    have hcall := hs.callback h
    rw [hpc] at hcall
    have hgiven := hs.given h (by simp [hpc])
    rw [← hcall] at hgiven
    cases hgiven
  | finish hfree hpc => exact hs.calls (.inr ⟨⟨_, hpc⟩, hfree, rfl⟩)

end ThreadStart

end CoroutineCpp
