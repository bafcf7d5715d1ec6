import CoroutineCpp.Model.ThreadStart

/-!
# The steps of a thread start

One case for each step of `ThreadStart.step`, with what has been tested before it.
-/

namespace CoroutineCpp

open Framework TransitionSystem

/-- The object that the constructor is building. -/
def CtorPc.target : CtorPc → Option ℕ
  | .idle => none
  | .setName x | .create x _ | .store x _ | .wait x => some x

/-- The object that `Run` has still to work on. -/
def RunPc.target : RunPc → Option ℕ
  | .setThis x | .setThreadName x | .setId x | .takeCb x | .post x _ => some x
  | _ => none

/-- The callback has been called. -/
def RunPc.hasCalled : RunPc → Bool
  | .running _ | .returned => true
  | _ => false

namespace ThreadStart

variable {s s' : ThreadStart} {a : StartAct} {p : Pthread} {h x : ℕ}

/-- One step, with what has been tested before it. -/
inductive Effect (s : ThreadStart) : StartAct → ThreadStart → Prop
  | constructDefault {p : Pthread} {x : ℕ} (hfree : s.free p = true) (hx : s.objects x = none) :
      Effect s (.constructDefault p x) (s.setObject x {})
  | construct {p : Pthread} {x cb : ℕ} {name : String} (hfree : s.free p = true)
      (hx : s.objects x = none) :
      Effect s (.construct p x name cb) ((s.setCtor p (.setName x)).setObject x (init p name cb))
  | setName {p : Pthread} {name : String} (hfree : s.free p = true) :
      Effect s (.setName p name) (s.setName p name)
  | getName {p : Pthread} (hfree : s.free p = true) : Effect s (.getName p) s
  | swap {p : Pthread} {x y : ℕ} {o o' : ThreadObject} (hfree : s.free p = true)
      (hx : s.objects x = some o) (hy : s.objects y = some o') (ho : o.stage = .constructed)
      (ho' : o'.stage = .constructed) : Effect s (.swap p x y) (s.swap x y o o')
  | ctorName {p : Pthread} {x : ℕ} {o : ThreadObject} {tid : ℤ} (hpc : s.ctors p = .setName x)
      (hx : s.objects x = some o) :
      Effect s (.ctor p tid) { s.setCtor p (.create x (s.tThreadName p)) with
        tThreadName := Function.update s.tThreadName p o.name }
  | create {p : Pthread} {x : ℕ} {old : String} {o : ThreadObject} {tid : ℤ}
      (hpc : s.ctors p = .create x old) (hx : s.objects x = some o) :
      Effect s (.ctor p tid)
        { ((s.setCtor p (.store x (s.created + 1))).setRun (s.created + 1) (.setThis x)).setObject x
            { o with stage := .made p (s.created + 1) } with
          created := s.created + 1
          threadId := Function.update s.threadId (s.created + 1) tid
          given := Function.update s.given (s.created + 1) o.cb }
  | store {p : Pthread} {x h : ℕ} {o : ThreadObject} {tid : ℤ} (hpc : s.ctors p = .store x h)
      (hx : s.objects x = some o) :
      Effect s (.ctor p tid) ((s.setCtor p (.wait x)).setObject x { o with thread := h })
  | wait {p : Pthread} {x : ℕ} {o : ThreadObject} {tid : ℤ} (hpc : s.ctors p = .wait x)
      (hx : s.objects x = some o) (hpos : 0 < o.semaphore) :
      Effect s (.ctor p tid) ((s.setCtor p .idle).setObject x
        { o with semaphore := o.semaphore - 1, stage := .constructed })
  | setThis {h x : ℕ} (hpc : s.runs h = .setThis x) :
      Effect s (.run h) { s.setRun h (.setThreadName x) with
        tThread := Function.update s.tThread (.started h) (some x) }
  | setThreadName {h x : ℕ} {o : ThreadObject} (hpc : s.runs h = .setThreadName x)
      (hx : s.objects x = some o) :
      Effect s (.run h) { s.setRun h (.setId x) with
        tThreadName := Function.update s.tThreadName (.started h) o.name }
  | setId {h x : ℕ} {o : ThreadObject} (hpc : s.runs h = .setId x) (hx : s.objects x = some o) :
      Effect s (.run h) ((s.setRun h (.takeCb x)).setObject x { o with id := s.threadId h })
  | takeCb {h x : ℕ} {o : ThreadObject} (hpc : s.runs h = .takeCb x) (hx : s.objects x = some o) :
      Effect s (.run h) ((s.setRun h (.post x o.cb)).setObject x { o with cb := none })
  | post {h x : ℕ} {cb : Option ℕ} {o : ThreadObject} (hpc : s.runs h = .post x cb)
      (hx : s.objects x = some o) :
      Effect s (.run h)
        ((s.setRun h (.call cb)).setObject x { o with semaphore := o.semaphore + 1 })
  | call {h cb : ℕ} (hpc : s.runs h = .call (some cb)) :
      Effect s (.run h) { s.setRun h (.running cb) with called := s.called ++ [(h, cb)] }
  | noObject {h x : ℕ} (hpc : (s.runs h).target = some x) (hx : s.objects x = none) :
      Effect s (.run h) { s with fault := some .noObject }
  | badCall {h : ℕ} (hpc : s.runs h = .call none) :
      Effect s (.run h) { s with fault := some .badFunctionCall }
  | finish {h cb : ℕ} (hfree : s.free (.started h) = true) (hpc : s.runs h = .running cb) :
      Effect s (.finish h) (s.setRun h .returned)

lemma ctorStep_effect {tid : ℤ} (h : s.ctorStep p tid = some s') : Effect s (.ctor p tid) s' := by
  unfold ctorStep at h
  cases hpc : s.ctors p with
  | idle => simp [hpc] at h
  | setName x =>
    simp only [hpc] at h
    obtain ⟨o, hx, rfl⟩ := Option.map_eq_some_iff.mp h
    exact .ctorName hpc hx
  | create x old =>
    simp only [hpc] at h
    obtain ⟨o, hx, rfl⟩ := Option.map_eq_some_iff.mp h
    exact .create hpc hx
  | store x h' =>
    simp only [hpc] at h
    obtain ⟨o, hx, rfl⟩ := Option.map_eq_some_iff.mp h
    exact .store hpc hx
  | wait x =>
    simp only [hpc] at h
    obtain ⟨o, hx, hstep⟩ := Option.bind_eq_some_iff.mp h
    obtain ⟨hpos, hstep⟩ := Option.ite_none_right_eq_some.mp hstep
    exact Option.some.inj hstep ▸ .wait hpc hx hpos

lemma runStep_effect (hstep : s.runStep h = some s') : Effect s (.run h) s' := by
  -- the steps that work on the object at `x`
  have hobject : ∀ {x} {f : ThreadObject → ThreadStart}, (s.runs h).target = some x →
      (∀ o, s.objects x = some o → Effect s (.run h) (f o)) →
      Effect s (.run h) (s.withObject x f) := by
    intro x f hpc hf
    unfold withObject
    cases hx : s.objects x with
    | none => exact .noObject hpc hx
    | some o => exact hf o hx
  unfold runStep at hstep
  cases hpc : s.runs h with
  | unborn | running cb | returned => simp [hpc] at hstep
  | setThis x =>
    simp only [hpc, Option.some.injEq] at hstep
    exact hstep ▸ .setThis hpc
  | setThreadName x =>
    simp only [hpc, Option.some.injEq] at hstep
    exact hstep ▸ hobject (by simp [hpc, RunPc.target]) fun o hx => .setThreadName hpc hx
  | setId x =>
    simp only [hpc, Option.some.injEq] at hstep
    exact hstep ▸ hobject (by simp [hpc, RunPc.target]) fun o hx => .setId hpc hx
  | takeCb x =>
    simp only [hpc, Option.some.injEq] at hstep
    exact hstep ▸ hobject (by simp [hpc, RunPc.target]) fun o hx => .takeCb hpc hx
  | post x cb =>
    simp only [hpc, Option.some.injEq] at hstep
    exact hstep ▸ hobject (by simp [hpc, RunPc.target]) fun o hx => .post hpc hx
  | call cb =>
    cases cb with
    | none =>
      simp only [hpc, Option.some.injEq] at hstep
      exact hstep ▸ .badCall hpc
    | some cb =>
      simp only [hpc, Option.some.injEq] at hstep
      exact hstep ▸ .call hpc

lemma step_effect (h : s.step a = some s') : Effect s a s' := by
  obtain ⟨-, h⟩ := Option.ite_none_left_eq_some.mp h
  cases a with
  | constructDefault p x =>
    obtain ⟨⟨hfree, hx⟩, h⟩ := Option.ite_none_right_eq_some.mp h
    exact Option.some.inj h ▸ .constructDefault hfree hx
  | construct p x name cb =>
    obtain ⟨⟨hfree, hx⟩, h⟩ := Option.ite_none_right_eq_some.mp h
    exact Option.some.inj h ▸ .construct hfree hx
  | setName p name =>
    obtain ⟨hfree, h⟩ := Option.ite_none_right_eq_some.mp h
    exact Option.some.inj h ▸ .setName hfree
  | getName p =>
    obtain ⟨hfree, h⟩ := Option.ite_none_right_eq_some.mp h
    exact Option.some.inj h ▸ .getName hfree
  | swap p x y =>
    dsimp only at h
    split at h
    next o o' hx hy =>
      obtain ⟨⟨hfree, ho, ho'⟩, h⟩ := Option.ite_none_right_eq_some.mp h
      exact Option.some.inj h ▸ .swap hfree hx hy ho ho'
    next => cases h
  | ctor p tid => exact ctorStep_effect h
  | run h' => exact runStep_effect h
  | finish h' =>
    dsimp only at h
    split at h
    next cb hpc =>
      obtain ⟨hfree, h⟩ := Option.ite_none_right_eq_some.mp h
      exact Option.some.inj h ▸ .finish hfree hpc
    next => cases h

end ThreadStart

end CoroutineCpp
