import CoroutineCpp.Framework.Progress
import CoroutineCpp.Properties.ThreadStarting

/-!
# The constructor of `Thread` and the thread that it creates

What `m_semaphore` is for (`src/thread.cpp`): while `Run` works on an object, the constructor of
that object has not returned, so that the object is there and nobody else uses it; and the
constructor does return, after a bounded number of steps of its own and of the new thread.  All
this is for calls that succeed (`Model/ThreadStart.lean`).
-/

namespace CoroutineCpp

open Framework TransitionSystem

/-- How many steps on the object `Run` still has before it. -/
def RunPc.left : RunPc → ℕ
  | .setThis _ => 5
  | .setThreadName _ => 4
  | .setId _ => 3
  | .takeCb _ => 2
  | .post _ _ => 1
  | _ => 0

/-- How many steps the constructor still has before it. -/
def CtorPc.left : CtorPc → ℕ
  | .idle => 0
  | .setName _ => 4
  | .create _ _ => 3
  | .store _ _ => 2
  | .wait _ => 1

namespace ThreadStart

variable {s s' s₀ : ThreadStart} {a : StartAct} {p : Pthread} {h x : ℕ}

lemma reachable_wired (h : startSystem.Reachable s) : s.Wired := by
  refine h.invariant (I := Wired) (fun s hs => ?_) fun s a s' _ hI _ (hs : s.step a = some s') =>
    (step_effect hs).wired hI
  obtain rfl : s = {} := hs
  exact ⟨rfl, fun p x hp => by simp [CtorPc.target] at hp,
    fun h x hh => by simp [RunPc.target] at hh, fun x o hx => by simp at hx,
    fun p x hp => by simp at hp, fun h => trivial, fun h => by simp; omega,
    fun h hh => absurd rfl hh, fun h hh => absurd rfl hh⟩

lemma setName_frame (s : ThreadStart) (p : Pthread) (name : String) :
    (s.setName p name).ctors = s.ctors ∧ (s.setName p name).runs = s.runs ∧
      (s.setName p name).given = s.given ∧ (s.setName p name).called = s.called ∧
      ∀ x, ((s.setName p name).objects x).map (·.stage) = (s.objects x).map (·.stage) := by
  unfold ThreadStart.setName
  split
  · exact ⟨rfl, rfl, rfl, rfl, fun _ => rfl⟩
  cases s.tThread p with
  | none => exact ⟨rfl, rfl, rfl, rfl, fun _ => rfl⟩
  | some x =>
    cases hx : s.objects x with
    | none => simp [rename, hx]
    | some o =>
      simp only [rename, hx]
      refine ⟨rfl, rfl, rfl, rfl, fun y => ?_⟩
      by_cases heq : y = x <;> simp [setObject, heq, hx]

/-! ## The callbacks -/

/-- A thread has called the callback that was given to its constructor, or none. -/
structure Called (s : ThreadStart) : Prop where
  mem_iff : ∀ h cb, (h, cb) ∈ s.called ↔ (s.runs h).hasCalled = true ∧ s.given h = some cb
  once : (s.called.map Prod.fst).Nodup

lemma Called.of_frame (hs : s.Called) (hcalled : s'.called = s.called)
    (hruns : ∀ h, (s'.runs h).hasCalled = (s.runs h).hasCalled ∧
      ((s.runs h).hasCalled = true → s'.given h = s.given h)) : s'.Called := by
  refine ⟨fun h cb => ?_, hcalled ▸ hs.once⟩
  rw [hcalled, hs.mem_iff, (hruns h).1]
  refine and_congr_right fun hh => ?_
  rw [(hruns h).2 hh]

/-- What `Run` of thread `h` keeps, all threads keep. -/
lemma setRun_congr {β : Type} (f : RunPc → β) {pc : RunPc} (hpc : f pc = f (s.runs h)) (k : ℕ) :
    f ((s.setRun h pc).runs k) = f (s.runs k) := by
  by_cases heq : k = h
  · simp [setRun, heq, hpc]
  · simp [setRun, heq]

lemma Called.call {cb : ℕ} (hs : s.Called) (hw : s.Wired) (hpc : s.runs h = .call (some cb)) :
    Called { s.setRun h (.running cb) with called := s.called ++ [(h, cb)] } := by
  have hnew : ∀ cb', (h, cb') ∉ s.called := by
    intro cb' hmem
    have := ((hs.mem_iff h cb').mp hmem).1
    simp [hpc, RunPc.hasCalled] at this
  have hgiven : some cb = s.given h := by
    have hcall := hw.callback h
    rwa [hpc] at hcall
  constructor
  · intro k cb'
    rw [List.mem_append, List.mem_singleton, Prod.mk.injEq]
    by_cases heq : k = h
    · subst heq
      simp [hnew, setRun, RunPc.hasCalled, ← hgiven, eq_comm]
    · simpa [heq, setRun] using hs.mem_iff k cb'
  · rw [List.map_append, List.map_singleton, List.nodup_append]
    refine ⟨hs.once, by simp, fun k hk b hb => ?_⟩
    obtain ⟨⟨k', cb'⟩, hmem, rfl⟩ := List.mem_map.mp hk
    obtain rfl := List.mem_singleton.mp hb
    rintro rfl
    exact hnew cb' hmem

lemma Effect.called (he : Effect s a s') (hw : s.Wired) (hs : s.Called) : s'.Called := by
  cases he with
  | constructDefault | construct | getName | swap | ctorName | store | wait | noObject | badCall =>
    exact hs.of_frame rfl fun _ => ⟨rfl, fun _ => rfl⟩
  | @setName p name hfree =>
    obtain ⟨-, hruns, hgiven, hcalled, -⟩ := setName_frame s p name
    exact hs.of_frame hcalled fun h => ⟨by rw [hruns], fun _ => by rw [hgiven]⟩
  | create hpc hx =>
    refine hs.of_frame rfl fun k => ⟨setRun_congr (s := s) RunPc.hasCalled ?_ k, fun hk =>
      Function.update_of_ne ?_ _ _⟩
    · rw [hw.unborn]
      rfl
    · rintro rfl
      simp [hw.unborn, RunPc.hasCalled] at hk
  | setThis hpc | setThreadName hpc hx | setId hpc hx | takeCb hpc hx | post hpc hx =>
    exact hs.of_frame rfl fun k =>
      ⟨setRun_congr RunPc.hasCalled (by simp [hpc, RunPc.hasCalled]) k, fun _ => rfl⟩
  | finish hfree hpc =>
    exact hs.of_frame rfl fun k =>
      ⟨setRun_congr RunPc.hasCalled (by simp [hpc, RunPc.hasCalled]) k, fun _ => rfl⟩
  | call hpc => exact hs.call hw hpc

lemma reachable_called (h : startSystem.Reachable s) : s.Called := by
  refine h.invariant (I := Called) (fun s hs => ?_) fun s a s' hr hI _ (hs : s.step a = some s') =>
    (step_effect hs).called (reachable_wired hr) hI
  obtain rfl : s = {} := hs
  exact ⟨fun h cb => by simp [RunPc.hasCalled], List.nodup_nil⟩

/-- In every reachable state of a program whose threads construct, swap and name `Thread` objects,
with callbacks that are not empty and calls that succeed: nothing has gone wrong; an object that
`Run` still works on is there, its constructor is behind `pthread_create` and has not returned, and
no other thread is in `Run` or a constructor for it; a constructed object has no callback and a
semaphore that stands at 0; and the threads that have called a callback have called the one given to
their constructor, once. -/
theorem start_handshake (h : startSystem.Reachable s) :
    s.fault = none ∧
    (∀ h x, (s.runs h).target = some x →
      (s.objects x).isSome ∧ ∃ p, (s.ctors p = .store x h ∨ s.ctors p = .wait x) ∧
        (∀ k, (s.runs k).target = some x → k = h) ∧ ∀ q, (s.ctors q).target = some x → q = p) ∧
    (∀ x o, s.objects x = some o → o.stage = .constructed → o.cb = none ∧ o.semaphore = 0) ∧
    s.Called := by
  have hw := reachable_wired h
  refine ⟨hw.fault, fun h x hh => ?_, fun x o hx hst => ?_, reachable_called h⟩
  · obtain ⟨o, p, hx, hst⟩ := hw.run h x hh
    have hp := hw.target hx (.inr ⟨h, hst⟩)
    refine ⟨by simp [hx], p, ?_, fun k hk => hw.run_inj hx hst hk, fun q hq => hw.ctor_inj hp hq⟩
    have hdata := hw.object x o hx
    simp only [ObjectData, hst] at hdata
    exact hdata.2.1.imp_right (·.1)
  · have hdata := hw.object x o hx
    simpa only [ObjectData, hst] using hdata

/-- Two constructors at the same time: the first new thread runs its callback, in which it
constructs an object, while the second is still in `Run` and its constructor waits. -/
theorem start_handshake_two :
    ∃ s : ThreadStart, s.runs 1 = .running 7 ∧ s.runs 2 = .setId 1 ∧
      s.ctors (.outside 1) = .wait 1 ∧ s.fault = none ∧
      (∃ p, (s.ctors p = .store 1 2 ∨ s.ctors p = .wait 1) ∧
        (∀ k, (s.runs k).target = some 1 → k = 2) ∧ ∀ q, (s.ctors q).target = some 1 → q = p) ∧
      s.Called := by
  obtain ⟨s, hs, hp⟩ := exists_reachable_of_runUnder (G := fun _ _ => True) (M := startSystem)
    (List.flatten [[.construct (.outside 0) 0 "a" 7, .construct (.outside 1) 1 "" 8],
      List.replicate 2 (.ctor (.outside 0) 100), List.replicate 2 (.ctor (.outside 1) 101),
      List.replicate 2 (.run 2), List.replicate 6 (.run 1), [.ctor (.outside 1) 0],
      List.replicate 2 (.ctor (.outside 0) 0), [.construct (.started 1) 2 "b" 9]])
    (fun s => s.runs 1 = .running 7 && s.runs 2 = .setId 1 && s.ctors (.outside 1) = .wait 1)
    rfl (by decide)
  simp only [Bool.and_eq_true, decide_eq_true_eq] at hp
  obtain ⟨⟨h1, h2⟩, hctor⟩ := hp
  obtain ⟨hfault, hrun, -, hcalled⟩ := start_handshake hs
  exact ⟨s, h1, h2, hctor, hfault, (hrun 2 1 (by rw [h2]; rfl)).2, hcalled⟩

/-! ## The constructor returns -/

/-- Steps of the constructor that thread `p` is in, and of `Run` for the object it builds. -/
def Serves (p : Pthread) (s : ThreadStart) : StartAct → Prop
  | .ctor q _ => q = p
  | .run h => (s.runs h).target.isSome = true ∧ (s.runs h).target = (s.ctors p).target
  | _ => False

instance (p : Pthread) (s : ThreadStart) (a : StartAct) : Decidable (Serves p s a) := by
  cases a <;> unfold Serves <;> infer_instance

/-- The steps of `Run` that the constructor at `x` waits for. -/
def runLeft (s : ThreadStart) (x : ℕ) : ℕ :=
  match (s.objects x).map ThreadObject.stage with
  | some (.fresh _) => 5
  | some (.made _ h) => (s.runs h).left
  | _ => 0

/-- The steps that are left until the constructor of thread `p` returns. -/
def left (p : Pthread) (s : ThreadStart) : ℕ :=
  (s.ctors p).left + (s.ctors p).target.elim 0 s.runLeft

lemma runLeft_frame
    (hstage : (s'.objects x).map ThreadObject.stage = (s.objects x).map ThreadObject.stage)
    (hruns : ∀ o p h, s.objects x = some o → o.stage = .made p h →
      (s'.runs h).left = (s.runs h).left) : s'.runLeft x = s.runLeft x := by
  unfold runLeft
  rw [hstage]
  cases hx : s.objects x with
  | none => rfl
  | some o =>
    cases hst : o.stage with
    | made p h => simp [hst, hruns o p h hx hst]
    | _ => simp [hst]

lemma left_frame (hctor : s'.ctors p = s.ctors p)
    (hobject : ∀ x, (s.ctors p).target = some x →
      (s'.objects x).map ThreadObject.stage = (s.objects x).map ThreadObject.stage ∧
        ∀ o p h, s.objects x = some o → o.stage = .made p h →
          (s'.runs h).left = (s.runs h).left) : s'.left p = s.left p := by
  unfold left
  rw [hctor]
  cases hx : (s.ctors p).target with
  | none => rfl
  | some x => exact congrArg _ (runLeft_frame (hobject x hx).1 (hobject x hx).2)

lemma left_of_not_serves (hserves : ¬ Serves p s a) (hleft : s'.left p = s.left p) :
    (if Serves p s a then 1 else 0) + s'.left p ≤ s.left p := by
  rw [if_neg hserves, Nat.zero_add]
  exact hleft.le

/-- A step of the constructor that thread `q` is in. -/
lemma Wired.ctor_left {q : Pthread} {y : ℕ} {tid : ℤ} {pc₀ pc : CtorPc} (hw : s.Wired)
    (hpc : s.ctors q = pc₀) (hq : pc₀.target = some y)
    (hctors : s'.ctors = Function.update s.ctors q pc)
    (hobjects : ∀ x, x ≠ y → s'.objects x = s.objects x)
    (hruns : ∀ h, s.runs h ≠ .unborn → s'.runs h = s.runs h)
    (hleft : 1 + (pc.left + pc.target.elim 0 s'.runLeft) ≤ s.left q) :
    (if Serves p s (.ctor q tid) then 1 else 0) + s'.left p ≤ s.left p := by
  subst hpc
  by_cases heq : q = p
  · subst heq
    simpa [Serves, left, hctors] using hleft
  · refine left_of_not_serves heq (left_frame (by simp [hctors, Ne.symm heq]) fun x hx =>
      ⟨?_, fun o p' h ho hst => ?_⟩)
    · rw [hobjects x]
      rintro rfl
      exact heq (hw.ctor_inj hx hq)
    · rw [hruns h]
      intro hun
      have hdata := hw.runData ho hst
      rwa [hun] at hdata

/-- A step of thread `h` in `Run` that works on the object at `y`. -/
lemma Wired.run_left {y : ℕ} {pc₀ pc : RunPc} (hw : s.Wired) (hpc : s.runs h = pc₀)
    (hh : pc₀.target = some y)
    (hctors : s'.ctors = s.ctors) (hruns : s'.runs = Function.update s.runs h pc)
    (hstage : ∀ x, (s'.objects x).map ThreadObject.stage = (s.objects x).map ThreadObject.stage)
    (hleft : pc₀.left = pc.left + 1) :
    (if Serves p s (.run h) then 1 else 0) + s'.left p ≤ s.left p := by
  subst hpc
  obtain ⟨o, q, hy, hst⟩ := hw.run h y hh
  by_cases heq : (s.ctors p).target = some y
  · rw [if_pos ⟨by simp [hh], hh.trans heq.symm⟩]
    have hrun : s'.runLeft y + 1 = s.runLeft y := by
      unfold runLeft
      rw [hstage, hy]
      simp [hst, hruns, hleft]
    simp only [left, hctors, heq, Option.elim_some]
    omega
  · refine left_of_not_serves (fun hserves => heq (hserves.2.symm.trans hh))
      (left_frame (by rw [hctors]) fun x hx => ⟨hstage x, fun o' q' k hx' hst' => ?_⟩)
    have hne : k ≠ h := by
      rintro rfl
      obtain rfl := hw.single hy hst hx' hst'
      exact heq hx
    rw [hruns, Function.update_of_ne hne]

/-- A step brings the constructor of thread `p` nearer to its end, or does not delay it. -/
lemma Effect.left_le (he : Effect s a s') (hw : s.Wired) (hp : s.ctors p ≠ .idle) :
    (if Serves p s a then 1 else 0) + s'.left p ≤ s.left p := by
  -- the object that `p` builds is there
  have hthere : ∀ {x}, (s.ctors p).target = some x →
      ∃ o, s.objects x = some o ∧ o.stage ≠ .constructed := by
    intro x hx
    obtain ⟨o, ho, hst⟩ := hw.ctor p x hx
    exact ⟨o, ho, by rcases hst with hst | ⟨h, hst⟩ <;> simp [hst]⟩
  cases he with
  | @constructDefault q y hfree hy =>
    refine left_of_not_serves id (left_frame rfl fun x hx => ⟨?_, fun _ _ _ _ _ => rfl⟩)
    obtain ⟨o, ho, -⟩ := hthere hx
    have hne : x ≠ y := by
      rintro rfl
      simp [ho] at hy
    simp [setObject, hne]
  | @construct q y cb name hfree hy =>
    have hqp : p ≠ q := by
      rintro rfl
      exact hp (Wired.idle_of_free hfree)
    refine left_of_not_serves id (left_frame ?_ fun x hx => ⟨?_, fun _ _ _ _ _ => rfl⟩)
    · simp [setObject, setCtor, hqp]
    · obtain ⟨o, ho, -⟩ := hthere hx
      have hne : x ≠ y := by
        rintro rfl
        simp [ho] at hy
      simp [setObject, setCtor, hne]
  | @setName q name hfree =>
    obtain ⟨hctors, hruns, -, -, hstage⟩ := setName_frame s q name
    exact left_of_not_serves id (left_frame (by rw [hctors]) fun x _ =>
      ⟨hstage x, fun _ _ _ _ _ => by rw [hruns]⟩)
  | getName hfree => exact left_of_not_serves id rfl
  | @swap q y z o o' hfree hy hz ho ho' =>
    refine left_of_not_serves id (left_frame rfl fun x hx => ⟨?_, fun _ _ _ _ _ => rfl⟩)
    obtain ⟨o₁, ho₁, hst⟩ := hthere hx
    have hxy : x ≠ y := by
      rintro rfl
      exact hst (Option.some.inj (ho₁.symm.trans hy) ▸ ho)
    have hxz : x ≠ z := by
      rintro rfl
      exact hst (Option.some.inj (ho₁.symm.trans hz) ▸ ho')
    simp [ThreadStart.swap, setObject, hxy, hxz]
  | @ctorName q y o tid hpc hy =>
    refine hw.ctor_left hpc rfl rfl (fun _ _ => rfl) (fun _ _ => rfl) ?_
    simp [left, hpc, CtorPc.left, CtorPc.target, runLeft, setCtor]
    omega
  | @create q y old o tid hpc hy =>
    obtain ⟨hst, -⟩ := hw.fresh (.inr ⟨old, hpc⟩) hy
    refine hw.ctor_left hpc rfl rfl
      (fun x hne => Function.update_of_ne hne _ _) (fun h hh => Function.update_of_ne ?_ _ _) ?_
    · rintro rfl
      exact hh hw.unborn
    · simp [left, hpc, CtorPc.left, CtorPc.target, runLeft, setRun, setObject, hy, hst, RunPc.left]
  | @store q y h o tid hpc hy =>
    obtain ⟨hst, -⟩ := hw.storing hpc hy
    refine hw.ctor_left hpc rfl rfl
      (fun x hne => Function.update_of_ne hne _ _) (fun _ _ => rfl) ?_
    simp [left, hpc, CtorPc.left, CtorPc.target, runLeft, setCtor, setObject, hy, hst]
    omega
  | @wait q y o tid hpc hy hpos =>
    refine hw.ctor_left hpc rfl rfl
      (fun x hne => Function.update_of_ne hne _ _) (fun _ _ => rfl) ?_
    simp [left, hpc, CtorPc.left, CtorPc.target]
  | setThis hpc =>
    exact hw.run_left hpc rfl rfl rfl (fun _ => rfl) rfl
  | setThreadName hpc hy =>
    exact hw.run_left hpc rfl rfl rfl (fun _ => rfl) rfl
  | @setId h y o hpc hy | @takeCb h y o hpc hy | @post h y cb o hpc hy =>
    refine hw.run_left hpc rfl rfl rfl (fun x => ?_) rfl
    by_cases heq : x = y <;> simp [setObject, setRun, heq, hy]
  | call hpc =>
    exact left_of_not_serves (by simp [Serves, hpc, RunPc.target]) (left_frame rfl fun x _ =>
      ⟨rfl, fun _ _ k _ _ => setRun_congr RunPc.left (by simp [hpc, RunPc.left]) k⟩)
  | noObject hpc hy =>
    obtain ⟨o, q, hy', -⟩ := hw.run _ _ hpc
    simp [hy] at hy'
  | badCall hpc =>
    exact left_of_not_serves (by simp [Serves, hpc, RunPc.target]) rfl
  | finish hfree hpc =>
    exact left_of_not_serves id (left_frame rfl fun x _ =>
      ⟨rfl, fun _ _ k _ _ => setRun_congr RunPc.left (by simp [hpc, RunPc.left]) k⟩)

lemma left_le_nine (s : ThreadStart) (p : Pthread) : s.left p ≤ 9 := by
  have hrun : ∀ pc : RunPc, pc.left ≤ 5 := by
    intro pc
    cases pc <;> simp [RunPc.left]
  have hobject : ∀ x, s.runLeft x ≤ 5 := by
    intro x
    unfold runLeft
    split
    · exact le_rfl
    · exact hrun _
    · exact Nat.zero_le 5
  unfold left
  cases s.ctors p with
  | idle => simp [CtorPc.left, CtorPc.target]
  | setName x | create x | store x | wait x =>
    have := hobject x
    simp only [CtorPc.left, CtorPc.target, Option.elim_some]
    omega

/-- Until the constructor returns, it or the new thread can go on. -/
lemma Wired.enabled (hw : s.Wired) (hp : s.ctors p ≠ .idle) :
    ∃ a s', Serves p s a ∧ startSystem.step s a = some s' := by
  have hctor : (s.ctorStep p 0).isSome = true →
      ∃ a s', Serves p s a ∧ startSystem.step s a = some s' := by
    intro hstep
    obtain ⟨s', hs'⟩ := Option.isSome_iff_exists.mp hstep
    exact ⟨.ctor p 0, s', rfl, by simpa [startSystem, ThreadStart.step, hw.fault] using hs'⟩
  obtain ⟨x, hx⟩ : ∃ x, (s.ctors p).target = some x := by
    cases hpc : s.ctors p <;> simp_all [CtorPc.target]
  obtain ⟨o, ho, hst⟩ := hw.ctor p x hx
  have hdata := hw.object x o ho
  rcases hst with hst | ⟨h, hst⟩
  · simp only [ObjectData, hst] at hdata
    rcases hdata.2.2.2.2 with hpc | ⟨old, hpc, -⟩ <;> exact hctor (by simp [ctorStep, hpc, ho])
  · simp only [ObjectData, hst] at hdata
    rcases hdata.2.1 with hpc | ⟨hpc, -⟩
    · exact hctor (by simp [ctorStep, hpc, ho])
    · by_cases hpos : 0 < o.semaphore
      · exact hctor (by simp [ctorStep, hpc, ho, hpos])
      · -- the permit is not there yet, and the new thread is on its way to it
        have hrun : (s.runs h).target = some x ∧ (s.runStep h).isSome = true := by
          have hdata := hdata.2.2
          cases hpc' : s.runs h with
          | unborn =>
            rw [hpc'] at hdata
            exact hdata.elim
          | setThis y =>
            rw [hpc'] at hdata
            exact ⟨congrArg some hdata.1, by simp [runStep, hpc']⟩
          | setThreadName y | setId y | takeCb y | post y =>
            rw [hpc'] at hdata
            exact ⟨congrArg some hdata.1, by simp [runStep, hpc']⟩
          | call cb | running cb | returned =>
            rw [hpc'] at hdata
            exact absurd (hdata.2.2.2 ▸ Nat.one_pos) hpos
        obtain ⟨s', hs'⟩ := Option.isSome_iff_exists.mp hrun.2
        exact ⟨.run h, s', ⟨by simp [hrun.1], hrun.1.trans hx.symm⟩,
          by simpa [startSystem, ThreadStart.step, hw.fault] using hs'⟩

/-- A constructor of `Thread` whose pthread and semaphore calls succeed returns: whatever the other
threads do, until then it or the thread that it has created can go on, and together they make at
most nine steps of the model. -/
theorem constructor_returns (h₀ : startSystem.Reachable s₀)
    {tr : List (ThreadStart × StartAct)}
    (h : (startSystem.startAt s₀).Exec (fun s _ => s.ctors p ≠ .idle) tr s) :
    countSteps (Serves p) tr ≤ 9 ∧
      (s.ctors p ≠ .idle → ∃ a s', Serves p s a ∧ startSystem.step s a = some s') := by
  obtain ⟨hw, hle⟩ := countSteps_add_rank_le (D := Serves p) (I := Wired) (left p) h
    (reachable_wired h₀) fun s a s' hw hp (hs : s.step a = some s') =>
      ⟨(step_effect hs).wired hw, (step_effect hs).left_le hw hp⟩
  have hmax := s₀.left_le_nine p
  exact ⟨by omega, hw.enabled⟩

/-- The constructor waits while its thread has still to take the callback and post. -/
theorem constructor_returns_waiting :
    ∃ s₀ tr s, (startSystem.startAt s₀).Exec (fun s _ => s.ctors (.outside 0) ≠ .idle) tr s ∧
      s.ctors (.outside 0) = .wait 0 ∧ countSteps (Serves (.outside 0)) tr ≤ 9 ∧
      ∃ a s', Serves (.outside 0) s a ∧ startSystem.step s a = some s' := by
  have h₀ : startSystem.Reachable
      ((({} : ThreadStart).setCtor (.outside 0) (.setName 0)).setObject 0
        (init (.outside 0) "a" 7)) :=
    .step (.init rfl) trivial (a := .construct (.outside 0) 0 "a" 7) rfl
  obtain ⟨tr, s, hexec, hp⟩ := exists_exec_of_traceUnder
    (M := startSystem.startAt
      ((({} : ThreadStart).setCtor (.outside 0) (.setName 0)).setObject 0
        (init (.outside 0) "a" 7)))
    (G := fun s _ => s.ctors (.outside 0) ≠ .idle)
    (List.flatten [List.replicate 2 (.ctor (.outside 0) 100), [.setName (.outside 1) "b"],
      List.replicate 3 (.run 1), [.ctor (.outside 0) 0]])
    (fun _ s => s.ctors (.outside 0) = .wait 0) rfl (by decide)
  have hpc : s.ctors (.outside 0) = .wait 0 := by simpa using hp
  obtain ⟨hle, hgo⟩ := constructor_returns h₀ hexec
  exact ⟨_, tr, s, hexec, hpc, hle, hgo (by simp [hpc])⟩

end ThreadStart

end CoroutineCpp
