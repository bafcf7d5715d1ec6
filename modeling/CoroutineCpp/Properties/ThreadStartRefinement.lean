import CoroutineCpp.Properties.ThreadHandshake

/-!
# The start of a thread as one step

`nameSystem` takes the constructor of `Thread` and `Run` up to its `Post` as one step.  The program
that makes them one access at a time is no different to its threads: `view` shows the state with
every start as not begun before `pthread_create` and as done behind it, and the states shown are
states of `nameSystem`.
-/

namespace CoroutineCpp

open Framework TransitionSystem

/-- An object that is being built is not there before its thread, and complete from then on. -/
def ThreadObject.shown (threadId : ℕ → ℤ) (o : ThreadObject) : Option Thread :=
  match o.stage with
  | .fresh _ => none
  | .made _ h => some { name := o.name, id := threadId h, thread := h }
  | .constructed => some o.toThread

/-- The object at which `t_thread` is about to be set. -/
def RunPc.self : RunPc → Option ℕ
  | .setThis x => some x
  | _ => none

/-- The object whose name is about to be taken. -/
def RunPc.namesake : RunPc → Option ℕ
  | .setThis x | .setThreadName x => some x
  | _ => none

/-- The name that the thread had before the constructor, until its new thread is there. -/
def CtorPc.oldName : CtorPc → Option String
  | .create _ old => some old
  | _ => none

namespace ThreadStart

variable {s s' : ThreadStart} {a : StartAct} {p : Pthread} {h x : ℕ}

/-! ## What the program sees -/

/-- The name of the object at `x`. -/
def nameAt (s : ThreadStart) (x : ℕ) : String := (s.objects x).elim "UNKNOWN" (·.name)

/-- `t_thread`, where a new thread has set it from the beginning. -/
def shownThis (s : ThreadStart) : Pthread → Option ℕ
  | .outside k => s.tThread (.outside k)
  | .started h => (s.runs h).self.or (s.tThread (.started h))

/-- `t_thread_name`, where a new thread has set it from the beginning. -/
def runName (s : ThreadStart) : Pthread → String
  | .outside k => s.tThreadName (.outside k)
  | .started h => (s.runs h).namesake.elim (s.tThreadName (.started h)) s.nameAt

/-- `t_thread_name`, where a constructor sets it together with the creation of its thread. -/
def shownName (s : ThreadStart) (p : Pthread) : String := (s.ctors p).oldName.getD (s.runName p)

/-- The state with each start as one step. -/
def view (s : ThreadStart) : ThreadNames where
  threads :=
    { objects := fun x => (s.objects x).bind (ThreadObject.shown s.threadId), created := s.created }
  tThread := s.shownThis
  tThreadName := s.shownName

lemma view_eq {t : ThreadNames}
    (hobjects : ∀ x, (s.objects x).bind (ThreadObject.shown s.threadId) = t.threads.objects x)
    (hcreated : s.created = t.threads.created) (hcalls : t.threads.calls = [])
    (hthis : ∀ p, s.shownThis p = t.tThread p) (hname : ∀ p, s.shownName p = t.tThreadName p) :
    s.view = t := by
  obtain ⟨⟨objects, created, calls⟩, tThread, tThreadName⟩ := t
  obtain rfl : calls = [] := hcalls
  simp only [view, ThreadNames.mk.injEq, Threads.mk.injEq, and_true]
  exact ⟨⟨funext hobjects, hcreated⟩, funext hthis, funext hname⟩

lemma running_of_free (hfree : s.free (.started h) = true) : ∃ cb, s.runs h = .running cb := by
  simp only [free, Bool.and_eq_true, decide_eq_true_eq] at hfree
  cases hpc : s.runs h <;> simp [hpc] at hfree ⊢

/-- A thread that is not in `Run` outside of its callback. -/
def Live (s : ThreadStart) (p : Pthread) : Prop :=
  ∀ h, p = .started h → ∃ cb, s.runs h = .running cb

lemma live_of_free (hfree : s.free p = true) : s.Live p := by
  rintro h rfl
  exact running_of_free hfree

lemma Wired.live (hs : s.Wired) (hp : s.ctors p ≠ .idle) : s.Live p := by
  rintro h rfl
  exact hs.busy h hp

lemma Live.shownThis (hp : s.Live p) : s.shownThis p = s.tThread p := by
  cases p with
  | outside k => rfl
  | started h =>
    obtain ⟨cb, hpc⟩ := hp h rfl
    simp [ThreadStart.shownThis, hpc, RunPc.self]

lemma Live.runName (hp : s.Live p) : s.runName p = s.tThreadName p := by
  cases p with
  | outside k => rfl
  | started h =>
    obtain ⟨cb, hpc⟩ := hp h rfl
    simp [ThreadStart.runName, hpc, RunPc.namesake]

lemma shownName_of_free (hfree : s.free p = true) : s.shownName p = s.tThreadName p := by
  simp [shownName, Wired.idle_of_free hfree, CtorPc.oldName, (live_of_free hfree).runName]

lemma Wired.alive (hs : s.Wired) (hp : s.Live p) : s.view.Alive p := by
  cases p with
  | outside k => trivial
  | started h =>
    obtain ⟨cb, hpc⟩ := hp h rfl
    obtain ⟨hpos, hle⟩ := (hs.born h).mp (by simp [hpc])
    exact ⟨Nat.ne_of_gt hpos, hle⟩

/-- Only an object that `Run` works on has a thread about to take its name. -/
lemma runName_congr (hname : s'.tThreadName p = s.tThreadName p) (hruns : s'.runs = s.runs)
    (hat : ∀ k x, (s.runs k).target = some x → s'.nameAt x = s.nameAt x) :
    s'.runName p = s.runName p := by
  cases p with
  | outside k => exact hname
  | started k =>
    simp only [runName, hruns, hname]
    cases hpc : (s.runs k).namesake with
    | none => rfl
    | some x =>
      refine hat k x ?_
      cases hpc' : s.runs k <;> simp_all [RunPc.namesake, RunPc.target]

/-! ## Steps that show nothing -/

/-- An object changes in what is not shown. -/
lemma view_setObject {y : ℕ} {o o' : ThreadObject} (hy : s.objects y = some o)
    (hshown : o'.shown s.threadId = o.shown s.threadId) (hname : o'.name = o.name) :
    (s.setObject y o').view = s.view := by
  have hat : (s.setObject y o').nameAt = s.nameAt := by
    funext x
    by_cases heq : x = y <;> simp [nameAt, setObject, heq, hy, hname]
  refine view_eq (fun x => ?_) rfl rfl (fun p => ?_) fun p => ?_
  · by_cases heq : x = y
    · simpa [view, setObject, heq, hy] using hshown
    · simp [view, setObject, heq]
  · cases p <;> rfl
  · exact congrArg (Option.getD _) (runName_congr rfl rfl fun _ x _ => congrFun hat x)

/-- A constructor goes on, but not to or from `pthread_create`. -/
lemma view_setCtor {pc : CtorPc} (hpc : pc.oldName = (s.ctors p).oldName) :
    (s.setCtor p pc).view = s.view := by
  refine view_eq (fun x => rfl) rfl rfl (fun q => ?_) fun q => ?_
  · cases q <;> rfl
  · have hrun : (s.setCtor p pc).runName q = s.runName q := by cases q <;> rfl
    have hold : ((s.setCtor p pc).ctors q).oldName = (s.ctors q).oldName := by
      by_cases heq : q = p
      · simp [setCtor, heq, hpc]
      · simp [setCtor, heq]
    exact congrArg₂ Option.getD hold hrun

/-- `Run` goes on, but does not set a thread-local variable. -/
lemma view_setRun {pc : RunPc} (hself : pc.self = (s.runs h).self)
    (hname : pc.namesake = (s.runs h).namesake) : (s.setRun h pc).view = s.view := by
  refine view_eq (fun x => rfl) rfl rfl (fun q => ?_) fun q => ?_
  · cases q with
    | outside k => rfl
    | started k => exact congrArg (Option.or · _) (setRun_congr RunPc.self hself k)
  · cases q with
    | outside k => rfl
    | started k =>
      have hrun : (s.setRun h pc).runName (.started k) = s.runName (.started k) :=
        congrArg (Option.elim · _ s.nameAt) (setRun_congr RunPc.namesake hname k)
      exact congrArg (Option.getD _) hrun

/-! ## A step of the program is a step of `nameSystem`, or shows nothing -/

/-- The new state is shown as the old one, or as what an operation makes of it. -/
def Shows (s s' : ThreadStart) : Prop :=
  s'.view = s.view ∨ ∃ act, ThreadNames.step s.view act = some s'.view

/-- A new object, at an address that no thread knows. -/
lemma Wired.runName_place {y : ℕ} (hs : s.Wired) (hy : s.objects y = none) (o : ThreadObject)
    (hname : s'.tThreadName p = s.tThreadName p) (hruns : s'.runs = s.runs)
    (hobjects : s'.objects = Function.update s.objects y (some o)) :
    s'.runName p = s.runName p := by
  refine runName_congr hname hruns fun k x hk => ?_
  obtain ⟨o', q, hx, -⟩ := hs.run k x hk
  have hne : x ≠ y := by
    rintro rfl
    simp [hx] at hy
  simp [nameAt, hobjects, hne]

lemma Wired.constructDefault_shows {y : ℕ} (hs : s.Wired) (hfree : s.free p = true)
    (hy : s.objects y = none) : s.Shows (s.setObject y {}) := by
  refine .inr ⟨(p, .constructDefault y), ?_⟩
  have hview : s.view.threads.objects y = none := by simp [view, hy]
  simp only [ThreadNames.step, hs.alive (live_of_free hfree), if_true, Threads.step, hview,
    Option.map_some]
  refine congrArg some (view_eq (fun x => ?_) rfl rfl (fun q => ?_) fun q => ?_).symm
  · by_cases heq : x = y
    · simp [setObject, Threads.setObject, heq, ThreadObject.shown]
    · simp [setObject, Threads.setObject, heq, view]
  · cases q <;> rfl
  · exact congrArg (Option.getD _) (hs.runName_place hy {} rfl rfl rfl)

lemma Wired.construct_shows {y cb : ℕ} {name : String} (hs : s.Wired) (hfree : s.free p = true)
    (hy : s.objects y = none) :
    ((s.setCtor p (.setName y)).setObject y (init p name cb)).view = s.view := by
  have hctor : (s.setCtor p (.setName y)).view = s.view :=
    view_setCtor (by simp [Wired.idle_of_free hfree, CtorPc.oldName])
  rw [← hctor]
  refine view_eq (fun x => ?_) rfl rfl (fun q => ?_) fun q => ?_
  · by_cases heq : x = y
    · simp [setObject, setCtor, view, heq, hy, init, ThreadObject.shown]
    · simp [setObject, view, heq]
  · cases q <;> rfl
  · have hrun : ((s.setCtor p (.setName y)).setObject y (init p name cb)).runName q = s.runName q :=
      hs.runName_place hy (init p name cb) rfl rfl rfl
    exact congrArg (Option.getD _) (hrun.trans (by cases q <;> rfl))

lemma Wired.ctorName_shows {y : ℕ} {o : ThreadObject} (hs : s.Wired)
    (hpc : s.ctors p = .setName y) :
    view { s.setCtor p (.create y (s.tThreadName p)) with
      tThreadName := Function.update s.tThreadName p o.name } = s.view := by
  refine view_eq (fun x => rfl) rfl rfl (fun q => ?_) fun q => ?_
  · cases q <;> rfl
  · by_cases heq : q = p
    · subst heq
      have hlive := hs.live (p := q) (by simp [hpc])
      simp [view, shownName, setCtor, hpc, CtorPc.oldName, hlive.runName]
    · have hrun : runName { s.setCtor p (.create y (s.tThreadName p)) with
          tThreadName := Function.update s.tThreadName p o.name } q = s.runName q := by
        cases q with
        | outside k => exact Function.update_of_ne heq _ _
        | started k =>
          exact congrArg (Option.elim _ · s.nameAt) (Function.update_of_ne heq _ _)
      have hctor : ((s.setCtor p (.create y (s.tThreadName p))).ctors q) = s.ctors q :=
        Function.update_of_ne heq _ _
      exact congrArg₂ Option.getD (congrArg CtorPc.oldName hctor) hrun

lemma setThis_shows {y : ℕ} (hpc : s.runs h = .setThis y) :
    view { s.setRun h (.setThreadName y) with
      tThread := Function.update s.tThread (.started h) (some y) } = s.view := by
  refine view_eq (fun x => rfl) rfl rfl (fun q => ?_) fun q => ?_
  · cases q with
    | outside k => rfl
    | started k =>
      by_cases heq : k = h
      · simp [view, shownThis, setRun, heq, hpc, RunPc.self]
      · simp [view, shownThis, setRun, heq]
  · have hrun : (s.setRun h (.setThreadName y)).runName q = s.runName q := by
      cases q with
      | outside k => rfl
      | started k =>
        exact congrArg (Option.elim · _ s.nameAt)
          (setRun_congr RunPc.namesake (by simp [hpc, RunPc.namesake]) k)
    exact congrArg (Option.getD _) hrun

lemma setThreadName_shows {y : ℕ} {o : ThreadObject} (hpc : s.runs h = .setThreadName y)
    (hy : s.objects y = some o) :
    view { s.setRun h (.setId y) with
      tThreadName := Function.update s.tThreadName (.started h) o.name } = s.view := by
  refine view_eq (fun x => rfl) rfl rfl (fun q => ?_) fun q => ?_
  · cases q with
    | outside k => rfl
    | started k =>
      exact congrArg (Option.or · _) (setRun_congr RunPc.self (by simp [hpc, RunPc.self]) k)
  · have hrun : runName { s.setRun h (.setId y) with
        tThreadName := Function.update s.tThreadName (.started h) o.name } q = s.runName q := by
      cases q with
      | outside k => rfl
      | started k =>
        by_cases heq : k = h
        · simp [runName, setRun, heq, hpc, RunPc.namesake, nameAt, hy]
        · simp [runName, setRun, heq]
          rfl
    exact congrArg (Option.getD _) hrun

/-- The constructor has given its name to its own thread. -/
lemma Wired.named {y : ℕ} {old : String} {o : ThreadObject} (hs : s.Wired)
    (hpc : s.ctors p = .create y old) (hy : s.objects y = some o) :
    s.tThreadName p = o.name := by
  obtain ⟨hst, -⟩ := hs.fresh (.inr ⟨old, hpc⟩) hy
  have hdata := hs.object y o hy
  simp only [ObjectData, hst, hpc] at hdata
  obtain ⟨-, -, -, -, hpc' | ⟨-, -, hname⟩⟩ := hdata
  · cases hpc'
  · exact hname

/-- The names behind `pthread_create`. -/
lemma Wired.create_shownName {y : ℕ} {old : String} {o : ThreadObject} (hs : s.Wired)
    (hpc : s.ctors p = .create y old) (hy : s.objects y = some o)
    (hctors : s'.ctors = Function.update s.ctors p (.store y (s.created + 1)))
    (hruns : s'.runs = Function.update s.runs (s.created + 1) (.setThis y))
    (hnames : s'.tThreadName = s.tThreadName) (hat : s'.nameAt = s.nameAt) (q : Pthread) :
    s'.shownName q =
      Function.update (Function.update s.shownName p o.name) (.started (s.created + 1)) o.name
        q := by
  have hlive := hs.live (p := p) (by simp [hpc])
  have hnew : Pthread.started (s.created + 1) ≠ p := by
    rintro rfl
    obtain ⟨cb, hrun⟩ := hlive _ rfl
    simp [hs.unborn] at hrun
  by_cases hqn : q = .started (s.created + 1)
  · subst hqn
    have hidle : s.ctors (.started (s.created + 1)) = .idle := by
      by_contra hne
      obtain ⟨cb, hrun⟩ := hs.busy _ hne
      simp [hs.unborn] at hrun
    simp [shownName, runName, hctors, hruns, hat, hnew, hidle, CtorPc.oldName, RunPc.namesake,
      nameAt, hy]
  · have hrun : s'.runName q = s.runName q := by
      cases q with
      | outside k => simp [runName, hnames]
      | started k =>
        have hne : k ≠ s.created + 1 := by
          rintro rfl
          exact hqn rfl
        simp [runName, hnames, hruns, hat, hne]
    by_cases hqp : q = p
    · subst hqp
      simp [shownName, hrun, hctors, CtorPc.oldName, hqn, hlive.runName, hs.named hpc hy]
    · simp [shownName, hrun, hctors, hqn, hqp]

lemma Wired.create_shows {y : ℕ} {old : String} {o : ThreadObject} {tid : ℤ} (hs : s.Wired)
    (hpc : s.ctors p = .create y old) (hy : s.objects y = some o) :
    s.Shows { ((s.setCtor p (.store y (s.created + 1))).setRun (s.created + 1)
        (.setThis y)).setObject y { o with stage := .made p (s.created + 1) } with
      created := s.created + 1
      threadId := Function.update s.threadId (s.created + 1) tid
      given := Function.update s.given (s.created + 1) o.cb } := by
  obtain ⟨hst, hjoin, -, -, hname⟩ := hs.fresh (.inr ⟨old, hpc⟩) hy
  have hlive := hs.live (p := p) (by simp [hpc])
  have hview : s.view.threads.objects y = none := by simp [view, hy, ThreadObject.shown, hst]
  refine .inr ⟨(p, .construct y o.name tid), ?_⟩
  simp only [ThreadNames.step, hs.alive hlive, if_true, Threads.step, hview, Option.map_some]
  refine congrArg some (view_eq (fun x => ?_) rfl rfl (fun q => ?_) fun q => ?_).symm
  · by_cases heq : x = y
    · simp [setObject, Threads.setObject, heq, ThreadObject.shown, Thread.construct,
        ThreadNames.construct, ThreadNames.run, hname, view]
    · simp only [setObject, ThreadNames.construct, ThreadNames.run, Threads.setObject, view, ne_eq,
        heq, not_false_eq_true, Function.update_of_ne]
      refine Option.bind_congr fun o' hx => ?_
      cases hst' : o'.stage with
      | made q h =>
        have hne : h ≠ s.created + 1 := by
          rintro rfl
          have hdata := hs.runData hx hst'
          rw [hs.unborn] at hdata
          exact hdata
        simp [ThreadObject.shown, hst', hne]
      | _ => simp [ThreadObject.shown, hst']
  · cases q with
    | outside k => rfl
    | started k =>
      by_cases heq : k = s.created + 1
      · simp [ThreadNames.construct, ThreadNames.run, heq, shownThis, setObject, setRun,
          RunPc.self, view]
      · simp [ThreadNames.construct, ThreadNames.run, heq, shownThis, setObject, setRun, setCtor,
          view]
  · refine (hs.create_shownName hpc hy ?_ ?_ ?_ (funext fun x => ?_) q).trans ?_
    · rfl
    · rfl
    · rfl
    · by_cases heq : x = y <;> simp [nameAt, setObject, setRun, setCtor, heq, hy]
    · simp [ThreadNames.construct, ThreadNames.run, hname, view]

/-- A thread in its program takes a name. -/
lemma view_named (name : String) (hctor : s.ctors p = .idle) (hlive : s.Live p) :
    view { s with tThreadName := Function.update s.tThreadName p name } =
      { s.view with tThreadName := Function.update s.view.tThreadName p name } := by
  refine view_eq (fun x => rfl) rfl rfl (fun q => ?_) fun q => ?_
  · cases q <;> rfl
  · by_cases heq : q = p
    · subst heq
      have hrun : runName { s with tThreadName := Function.update s.tThreadName q name } q = name :=
        Eq.trans (Live.runName hlive) (Function.update_self _ _ _)
      simp only [shownName, hctor, CtorPc.oldName, Option.getD_none, Function.update_self]
      exact hrun
    · have hrun : runName { s with tThreadName := Function.update s.tThreadName p name } q =
          s.runName q :=
        runName_congr (Function.update_of_ne heq _ _) rfl fun _ _ _ => rfl
      simp only [shownName, view, Function.update_of_ne heq]
      rw [hrun]

/-- A thread in its program renames its object, which it has taken the name of long ago. -/
lemma Wired.view_rename {name : String} (hs : s.Wired) (hfree : s.free p = true)
    (hp : s.tThread p = some x) :
    (s.rename x name).view = { s.view with threads := s.view.threads.rename x name } := by
  obtain ⟨o, hx, hst⟩ := hs.this p x hp
  simp only [rename, hx]
  refine view_eq (fun z => ?_) rfl rfl (fun q => ?_) fun q => ?_
  · by_cases heq : z = x
    · subst heq
      rcases hst with hst | ⟨q, h, hst, -⟩ <;>
        simp [setObject, Threads.rename, Threads.setObject, view, hx, ThreadObject.shown, hst]
    · simp [setObject, Threads.rename, Threads.setObject, view, heq]
  · cases q <;> rfl
  · refine congrArg (Option.getD _) (runName_congr rfl rfl fun k z hk => ?_)
    have hne : z ≠ x := by
      rintro rfl
      obtain ⟨q', hmade⟩ := hs.stage_of_run hx hk
      rcases hst with hst | ⟨q, h, hst, rfl⟩
      · simp [hst] at hmade
      · obtain rfl := hs.run_inj hx hst hk
        obtain ⟨cb, hrun⟩ := running_of_free hfree
        simp [hrun, RunPc.target] at hk
    simp [nameAt, setObject, hne]

lemma Wired.setName_shows {name : String} (hs : s.Wired) (hfree : s.free p = true) :
    s.Shows (s.setName p name) := by
  have hidle := Wired.idle_of_free hfree
  have hlive := live_of_free hfree
  have hthis : s.view.tThread p = s.tThread p := hlive.shownThis
  refine .inr ⟨(p, .setName name), ?_⟩
  simp only [ThreadNames.step, hs.alive hlive, if_true]
  refine congrArg some ?_
  unfold ThreadNames.setName ThreadStart.setName
  split
  · rfl
  cases hp : s.tThread p with
  | none =>
    rw [hp] at hthis
    simp only [hthis]
    exact (view_named name hidle hlive).symm
  | some x =>
    rw [hp] at hthis
    obtain ⟨o, hx, -⟩ := hs.this p x hp
    have hframe : (s.rename x name).ctors = s.ctors ∧ (s.rename x name).runs = s.runs := by
      simp [rename, hx, setObject]
    have hlive' : (s.rename x name).Live p := by
      simpa only [Live, hframe.2] using hlive
    simp only [hthis]
    rw [view_named name (by rw [hframe.1, hidle]) hlive', hs.view_rename hfree hp]

lemma Wired.swap_shows {y z : ℕ} {o o' : ThreadObject} (hs : s.Wired) (hfree : s.free p = true)
    (hy : s.objects y = some o) (hz : s.objects z = some o') (ho : o.stage = .constructed)
    (ho' : o'.stage = .constructed) : s.Shows (s.swap y z o o') := by
  refine .inr ⟨(p, .swap y z), ?_⟩
  have hy' : s.view.threads.objects y = some o.toThread := by
    simp [view, hy, ThreadObject.shown, ho]
  have hz' : s.view.threads.objects z = some o'.toThread := by
    simp [view, hz, ThreadObject.shown, ho']
  simp only [ThreadNames.step, hs.alive (live_of_free hfree), if_true, Threads.step, hy', hz',
    Option.map_some]
  refine congrArg some (view_eq (fun x => ?_) rfl rfl (fun q => ?_) fun q => ?_).symm
  · by_cases hxz : x = z
    · simp [ThreadStart.swap, setObject, Threads.setObject, hxz, ThreadObject.shown, ho]
    · by_cases hxy : x = y
      · subst hxy
        simp [ThreadStart.swap, setObject, Threads.setObject, hxz, ThreadObject.shown, ho']
      · simp [ThreadStart.swap, setObject, Threads.setObject, hxy, hxz, view]
  · cases q <;> rfl
  · refine congrArg (Option.getD _) (runName_congr rfl rfl fun k x hk => ?_)
    obtain ⟨o₁, q', hx, hst⟩ := hs.run k x hk
    have hxy : x ≠ y := by
      rintro rfl
      obtain rfl := Option.some.inj (hx.symm.trans hy)
      simp [ho] at hst
    have hxz : x ≠ z := by
      rintro rfl
      obtain rfl := Option.some.inj (hx.symm.trans hz)
      simp [ho'] at hst
    simp [nameAt, ThreadStart.swap, setObject, hxy, hxz]

lemma Effect.shows (he : Effect s a s') (hs : s.Wired) : s.Shows s' := by
  cases he with
  | constructDefault hfree hy => exact hs.constructDefault_shows hfree hy
  | construct hfree hy => exact .inl (hs.construct_shows hfree hy)
  | setName hfree => exact hs.setName_shows hfree
  | getName hfree => exact .inl rfl
  | swap hfree hy hz ho ho' => exact hs.swap_shows hfree hy hz ho ho'
  | ctorName hpc hy => exact .inl (hs.ctorName_shows hpc)
  | create hpc hy => exact hs.create_shows hpc hy
  | @store q y h o tid hpc hy =>
    obtain ⟨hst, -⟩ := hs.storing hpc hy
    refine .inl ((view_setObject (s := s.setCtor q (.wait y)) hy ?_ ?_).trans
      (view_setCtor (by simp [hpc, CtorPc.oldName])))
    · simp [ThreadObject.shown, hst]
    · rfl
  | @wait q y o tid hpc hy hpos =>
    obtain ⟨h, hst, ⟨hjoin, hthread⟩, hid, -⟩ := hs.posted hpc hy hpos
    refine .inl ((view_setObject (s := s.setCtor q .idle) hy ?_ ?_).trans
      (view_setCtor (by simp [hpc, CtorPc.oldName])))
    · obtain ⟨⟨name, id, thread, joinable⟩, cb, semaphore, stage⟩ := o
      simp_all [ThreadObject.shown, setCtor]
    · rfl
  | setThis hpc => exact .inl (setThis_shows hpc)
  | setThreadName hpc hy => exact .inl (setThreadName_shows hpc hy)
  | @setId h y o hpc hy =>
    obtain ⟨p, hst⟩ := hs.stage_of_run (h := h) hy (by simp [hpc, RunPc.target])
    refine .inl ((view_setObject (s := s.setRun h (.takeCb y)) hy ?_ ?_).trans
      (view_setRun (by simp [hpc, RunPc.self]) (by simp [hpc, RunPc.namesake])))
    · simp [ThreadObject.shown, hst]
    · rfl
  | @takeCb h y o hpc hy =>
    refine .inl ((view_setObject (s := s.setRun h (.post y o.cb)) hy ?_ ?_).trans
      (view_setRun (by simp [hpc, RunPc.self]) (by simp [hpc, RunPc.namesake])))
    · simp [ThreadObject.shown]
    · rfl
  | @post h y cb o hpc hy =>
    refine .inl ((view_setObject (s := s.setRun h (.call cb)) hy ?_ ?_).trans
      (view_setRun (by simp [hpc, RunPc.self]) (by simp [hpc, RunPc.namesake])))
    · simp [ThreadObject.shown]
    · rfl
  | @call h cb hpc =>
    have hview : (s.setRun h (.running cb)).view = s.view :=
      view_setRun (by simp [hpc, RunPc.self]) (by simp [hpc, RunPc.namesake])
    exact .inl hview
  | noObject hpc hy => exact .inl rfl
  | badCall hpc => exact .inl rfl
  | finish hfree hpc =>
    exact .inl (view_setRun (by simp [hpc, RunPc.self]) (by simp [hpc, RunPc.namesake]))

/-- **The start of a thread is one step to the program**, where its pthread and semaphore calls
succeed.  In every reachable state, what a thread in its program knows of itself and every
constructed object is as in a state of `nameSystem`. -/
theorem start_refines (h : startSystem.Reachable s) :
    nameSystem.Reachable s.view ∧
    (∀ p, s.free p = true → s.view.Alive p ∧ s.view.tThread p = s.tThread p ∧
      s.view.getName p = s.tThreadName p) ∧
    ∀ x o, s.objects x = some o → o.stage = .constructed →
      s.view.threads.objects x = some o.toThread := by
  have hw := reachable_wired h
  refine ⟨h.simulate_stutter view (fun s hs => ?_) fun s a s' hreach _ hs => ?_,
    fun p hfree => ⟨hw.alive (live_of_free hfree), (live_of_free hfree).shownThis,
      shownName_of_free hfree⟩, fun x o hx hst => by simp [view, hx, ThreadObject.shown, hst]⟩
  · obtain rfl : s = {} := hs
    refine view_eq (fun _ => rfl) rfl rfl (fun p => ?_) fun p => ?_ <;> cases p <;> rfl
  · exact ((step_effect hs).shows (reachable_wired hreach)).imp_right fun ⟨act, hact⟩ =>
      ⟨act, trivial, hact⟩

/-- A new thread runs its callback and renames itself while its constructor still waits. -/
theorem start_refines_renamed :
    ∃ s : ThreadStart, s.ctors (.outside 0) = .wait 0 ∧ nameSystem.Reachable s.view ∧
      s.view.tThread (.started 1) = some 0 ∧ s.view.getName (.started 1) = "worker" := by
  obtain ⟨s, hs, hp⟩ := exists_reachable_of_runUnder (G := fun _ _ => True) (M := startSystem)
    (List.flatten [[.construct (.outside 0) 0 "a" 7], List.replicate 2 (.ctor (.outside 0) 100),
      List.replicate 6 (.run 1), [.ctor (.outside 0) 0, .setName (.started 1) "worker"]])
    (fun s => s.ctors (.outside 0) = .wait 0 && s.free (.started 1) &&
      s.tThread (.started 1) = some 0 && s.tThreadName (.started 1) = "worker") rfl (by decide)
  simp only [Bool.and_eq_true, decide_eq_true_eq] at hp
  obtain ⟨⟨⟨hctor, hfree⟩, hthis⟩, hname⟩ := hp
  obtain ⟨hreach, hown, -⟩ := start_refines hs
  obtain ⟨-, hthis', hname'⟩ := hown (.started 1) hfree
  exact ⟨s, hctor, hreach, hthis'.trans hthis, hname'.trans hname⟩

end ThreadStart

end CoroutineCpp
