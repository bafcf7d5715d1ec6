import CoroutineCpp.Properties.StartLock
import CoroutineCpp.Properties.StopSafety

/-!
# One thread for each executor

The executors of a scheduler are made by `Start` and stopped by `Stop`.  Where `Stop` does not come
between the test of `m_stopping` and the call of `Process` in a `Start` (`StopApart`), what there is
is known exactly (`Exact`, `Steady`): the executors are those of the models of a running scheduler,
the `i`-th with id `i`, and each has a thread of its own, executor `0` the one that called `Start`.
`stop_amid_start` shows what happens otherwise.
-/

namespace CoroutineCpp

open Framework TransitionSystem

namespace SchedLife

variable {s s' : SchedLife} {a : LifeAct} {c : ℕ}

/-! ## What is made, where `Stop` keeps out of the way -/

/-- A `Start` of thread `c` has passed the test of `m_stopping` and may still make executors. -/
def mayMake (s : SchedLife) (c : ℕ) : Bool :=
  match s.callers c with
  | .tryLock _ _ => !s.startedMtx
  | pc => pc.making

/-- `Stop` does not come between the test of `m_stopping` and the call of `Process`. -/
def StopApart (s : SchedLife) (a : LifeAct) : Prop := a = .stop → ∀ c, s.mayMake c = false

/-- How many executors `Start` makes. -/
def more (s : SchedLife) : ℕ := (s.minThreadCnt - 1).toNat

/-- `m` executors have been made, those before `b` have a thread, those before `t` are in the
table. -/
structure Shape (s : SchedLife) (t b m : ℕ) : Prop where
  made : s.made = m
  born : ∀ x, s.threads x ≠ .unborn ↔ 1 ≤ x ∧ x < b
  table : s.stopping = false → s.table = List.range t

/-- What there is while a call of `Start` stands at the given point. -/
def Exact (s : SchedLife) : StartPc → Prop
  | .settle .. => s.Shape 1 1 1
  | .create i => i ≤ s.more ∧ s.Shape (i + 1) (i + 1) (i + 1)
  | .launch i x => x = i + 1 ∧ i < s.more ∧ s.Shape (i + 1) (i + 1) (i + 2)
  | .pushBack i x => x = i + 1 ∧ i < s.more ∧ s.Shape (i + 1) (i + 2) (i + 2)
  | .dispatcher | .front => s.Shape (s.more + 1) (s.more + 1) (s.more + 1)
  | .process x => x = 0 ∧ s.Shape (s.more + 1) (s.more + 1) (s.more + 1)
  | _ => True

lemma exact_of_not_inside {pc : StartPc} (h : pc.inside = false) : s.Exact pc := by
  cases pc <;> trivial

lemma Shape.of_frame {t b m : ℕ} (h : s.Shape t b m) (hmade : s'.made = s.made)
    (hborn : ∀ x, s'.threads x ≠ .unborn ↔ s.threads x ≠ .unborn)
    (htable : s'.stopping = false → s.stopping = false ∧ s'.table = s.table) : s'.Shape t b m where
  made := hmade.trans h.made
  born x := (hborn x).trans (h.born x)
  table hrun := (htable hrun).2.trans (h.table (htable hrun).1)

lemma Exact.of_frame {pc : StartPc} (h : s.Exact pc) (hmin : s'.minThreadCnt = s.minThreadCnt)
    (hmade : s'.made = s.made) (hborn : ∀ x, s'.threads x ≠ .unborn ↔ s.threads x ≠ .unborn)
    (htable : s'.stopping = false → s.stopping = false ∧ s'.table = s.table) : s'.Exact pc := by
  have hmore : s'.more = s.more := by rw [more, more, hmin]
  cases pc with
  | idle | testStopping | tryLock => trivial
  | settle | dispatcher | front =>
    simp only [Exact, hmore] at h ⊢
    exact h.of_frame hmade hborn htable
  | create | process =>
    simp only [Exact, hmore] at h ⊢
    exact ⟨h.1, h.2.of_frame hmade hborn htable⟩
  | launch | pushBack =>
    simp only [Exact, hmore] at h ⊢
    exact ⟨h.1, h.2.1, h.2.2.of_frame hmade hborn htable⟩

/-- The invariant of the runs in which `Stop` keeps out of the way. -/
structure Steady (s : SchedLife) : Prop where
  fault : s.fault = none
  id : ∀ x < s.made, (s.objects x).id = x
  start : s.entered = [] → s.Shape 1 1 1
  exact : ∀ c, s.Exact (s.callers c)
  done : s.entered ≠ [] → (∀ c, (s.callers c).making = false) →
    s.Shape (s.more + 1) (s.more + 1) (s.more + 1)
  stopped : s.stopping = true →
    s.table = [] ∧ (∀ x < s.made, (s.objects x).isStopping = true) ∧ ∀ c, s.mayMake c = false

/-- Nothing moves that matters, but perhaps a thread. -/
lemma Steady.of_frame (h : s.Steady) (hfault : s'.fault = s.fault)
    (hid : ∀ x, (s'.objects x).id = (s.objects x).id)
    (hflag : ∀ x, (s.objects x).isStopping = true → (s'.objects x).isStopping = true)
    (hmade : s'.made = s.made) (hmin : s'.minThreadCnt = s.minThreadCnt)
    (hborn : ∀ x, s'.threads x ≠ .unborn ↔ s.threads x ≠ .unborn)
    (hstop : s'.stopping = s.stopping) (htable : s'.table = s.table)
    (hcallers : s'.callers = s.callers) (hmtx : s'.startedMtx = s.startedMtx)
    (hentered : s'.entered = s.entered) : s'.Steady := by
  have hframe : s'.stopping = false → s.stopping = false ∧ s'.table = s.table := fun hrun =>
    ⟨hstop ▸ hrun, htable⟩
  have hmore : s'.more = s.more := by rw [more, more, hmin]
  constructor
  · exact hfault.trans h.fault
  · intro x hx
    rw [hid]
    exact h.id x (hmade ▸ hx)
  · intro he
    exact (h.start (hentered ▸ he)).of_frame hmade hborn hframe
  · intro c
    rw [hcallers]
    exact (h.exact c).of_frame hmin hmade hborn hframe
  · intro he hmaking
    rw [hmore]
    exact (h.done (hentered ▸ he) (hcallers ▸ hmaking)).of_frame hmade hborn hframe
  · intro hst
    obtain ⟨hnil, hflags, hnone⟩ := h.stopped (hstop ▸ hst)
    refine ⟨htable.trans hnil, fun x hx => hflag x (hflags x (hmade ▸ hx)), fun c => ?_⟩
    rw [← hnone c, mayMake, mayMake, hcallers, hmtx]

/-- A call that makes no executor moves on to a point where it makes none. -/
lemma Steady.outside {pc : StartPc} (h : s.Steady) (hfrom : (s.callers c).making = false)
    (hpc : pc.inside = false) (hc : s'.callers = Function.update s.callers c pc)
    (hmake : s.stopping = true → s'.mayMake c = false)
    (hfault : s'.fault = s.fault) (hobjects : s'.objects = s.objects) (hmade : s'.made = s.made)
    (hmin : s'.minThreadCnt = s.minThreadCnt) (hthreads : s'.threads = s.threads)
    (hstop : s'.stopping = s.stopping) (htable : s'.table = s.table)
    (hmtx : s'.startedMtx = s.startedMtx) (hentered : s'.entered = s.entered) : s'.Steady := by
  have hframe : s'.stopping = false → s.stopping = false ∧ s'.table = s.table := fun hrun =>
    ⟨hstop ▸ hrun, htable⟩
  have hborn : ∀ x, s'.threads x ≠ .unborn ↔ s.threads x ≠ .unborn := by simp [hthreads]
  have hmore : s'.more = s.more := by rw [more, more, hmin]
  constructor
  · exact hfault.trans h.fault
  · rw [hobjects, hmade]
    exact h.id
  · intro he
    exact (h.start (hentered ▸ he)).of_frame hmade hborn hframe
  · intro c'
    rw [hc]
    by_cases heq : c' = c
    · subst heq
      simpa using exact_of_not_inside hpc
    · simpa [heq] using (h.exact c').of_frame hmin hmade hborn hframe
  · intro he hmaking
    rw [hmore]
    refine (h.done (hentered ▸ he) fun c' => ?_).of_frame hmade hborn hframe
    by_cases heq : c' = c
    · exact heq ▸ hfrom
    · simpa [hc, heq] using hmaking c'
  · intro hst
    obtain ⟨hnil, hflags, hnone⟩ := h.stopped (hstop ▸ hst)
    refine ⟨htable.trans hnil, by rwa [hobjects, hmade], fun c' => ?_⟩
    by_cases heq : c' = c
    · exact heq ▸ hmake (hstop ▸ hst)
    · rw [← hnone c', mayMake, mayMake, hc, hmtx, Function.update_of_ne heq]

/-- The call that is past the lock moves on. -/
lemma Locked.steady {pc : StartPc} (hl : s.Locked) (hin : (s.callers c).inside = true)
    (hrun : s'.stopping = false) (hpc : pc.inside = true)
    (hc : s'.callers = Function.update s.callers c pc) (hentered : s'.entered = s.entered)
    (hfault : s'.fault = none) (hid : ∀ x < s'.made, (s'.objects x).id = x)
    (hexact : s'.Exact pc) : s'.Steady := by
  refine ⟨hfault, hid, fun he => ?_, fun c' => ?_, fun _ hmaking => ?_, fun hst => ?_⟩
  · simp [hentered, hl.inside c hin] at he
  · rw [hc]
    by_cases heq : c' = c
    · simpa [heq] using hexact
    · rw [Function.update_of_ne heq]
      exact exact_of_not_inside (hl.not_inside hin heq)
  · have hnot : pc.making = false := by simpa [hc] using hmaking c
    cases pc with
    | process x => exact hexact.2
    | idle | testStopping | tryLock => cases hpc
    | _ => cases hnot
  · simp [hrun] at hst

lemma Steady.running {pc : StartPc} (h : s.Steady) (hpc : s.callers c = pc)
    (hmaking : pc.making = true) : s.stopping = false := by
  rw [← Bool.not_eq_true]
  intro hst
  have hnone := (h.stopped hst).2.2 c
  rw [mayMake, hpc] at hnone
  cases pc with
  | idle | testStopping | tryLock | process => cases hmaking
  | _ => cases hnone

lemma mayMake_of_making (h : (s.callers c).making = true) : s.mayMake c = true := by
  obtain ⟨pc, hpc⟩ : ∃ pc, s.callers c = pc := ⟨_, rfl⟩
  rw [hpc] at h
  rw [mayMake, hpc]
  cases pc with
  | tryLock => cases h
  | _ => exact h

/-- `Stop` finds every executor there is in the table. -/
lemma Steady.stop_flags (h : s.Steady) (hnone : ∀ c, s.mayMake c = false) :
    ∀ x < s.made, (s.stop.objects x).isStopping = true := by
  have hmaking : ∀ c, (s.callers c).making = false := by
    intro c
    rw [← Bool.not_eq_true]
    intro hc
    have hmake := mayMake_of_making hc
    rw [hnone c] at hmake
    cases hmake
  obtain ⟨n, hshape⟩ : ∃ n, s.Shape n n n := by
    by_cases he : s.entered = []
    · exact ⟨_, h.start he⟩
    · exact ⟨_, h.done he hmaking⟩
  intro x hx
  simp only [stop]
  cases hst : s.stopping with
  | true =>
    have hflag := (h.stopped hst).2.1 x hx
    split
    · rfl
    · exact hflag
  | false =>
    rw [hshape.table hst, if_pos (List.mem_range.mpr (hshape.made ▸ hx))]

/-! ## What the steps of a `Start` keep -/

/-- A call gets past the lock. -/
lemma Steady.lock {nMin nMax : ℤ} (hs : s.Steady) (hl : s.Locked)
    (hpc : s.callers c = .tryLock nMin nMax) (hfree : s.startedMtx = false) :
    Steady { s.setCaller c (.settle nMin nMax) with
      startedMtx := true, entered := c :: s.entered } := by
  have hrun : s.stopping = false := by
    rw [← Bool.not_eq_true]
    intro hst
    have hmake := (hs.stopped hst).2.2 c
    simp [mayMake, hpc, hfree] at hmake
  refine ⟨hs.fault, hs.id, by simp, fun c' => ?_, fun _ hmaking => ?_, fun hst => ?_⟩
  · by_cases heq : c' = c
    · subst heq
      simp only [setCaller, Function.update_self]
      have hshape := hs.start (hl.free hfree)
      exact ⟨hshape.made, hshape.born, hshape.table⟩
    · simp only [setCaller, Function.update_of_ne heq]
      exact (hs.exact c').of_frame rfl rfl (fun _ => Iff.rfl) fun hrun => ⟨hrun, rfl⟩
  · have hmake := hmaking c
    simp [setCaller, StartPc.making] at hmake
  · simp [setCaller, hrun] at hst

/-- An executor is made, with the size of the table as its id. -/
lemma Steady.make {i : ℕ} (hs : s.Steady) (hl : s.Locked) (hpc : s.callers c = .create i)
    (hlt : (i : ℤ) < s.minThreadCnt - 1) :
    Steady { s.setCaller c (.launch i s.made) with
      made := s.made + 1
      objects := Function.update s.objects s.made { id := s.table.length } } := by
  obtain ⟨hle, hshape⟩ : s.Exact (.create i) := hpc ▸ hs.exact c
  have hrun := hs.running hpc rfl
  refine hl.steady (by rw [hpc]; rfl) hrun rfl rfl rfl hs.fault (fun x hx => ?_) ?_
  · by_cases heq : x = s.made
    · simp [heq, hshape.table hrun, hshape.made]
    · have hx : x < s.made + 1 := hx
      simpa [heq] using hs.id x (by omega)
  · have hmade : s.made + 1 = i + 2 := by rw [hshape.made]
    have hmore : i < s.more := by
      unfold more
      omega
    exact ⟨hshape.made, hmore, hmade, hshape.born, hshape.table⟩

/-- The thread of an executor is created. -/
lemma Steady.launch {i x : ℕ} (hs : s.Steady) (hl : s.Locked)
    (hpc : s.callers c = .launch i x) :
    ((s.setCaller c (.pushBack i x)).setThread x .ready).Steady := by
  obtain ⟨rfl, hmore, hshape⟩ : s.Exact (.launch i x) := hpc ▸ hs.exact c
  refine hl.steady (by rw [hpc]; rfl) (hs.running hpc rfl) rfl rfl rfl hs.fault hs.id ?_
  refine ⟨rfl, hmore, hshape.made, fun y => ?_, hshape.table⟩
  by_cases heq : y = i + 1
  · simp [setThread, heq]
  · have hborn := hshape.born y
    simp only [setThread, Function.update_of_ne heq]
    exact hborn.trans (by omega)

/-- An executor is told to stop. -/
lemma Steady.flag (hs : s.Steady) (x : ℕ) : (s.setStopping x).Steady := by
  refine hs.of_frame rfl (fun y => ?_) (fun y hy => ?_) rfl rfl (fun _ => Iff.rfl) rfl rfl rfl rfl
    rfl
  · by_cases heq : y = x
    · simp [setStopping, heq]
    · simp [setStopping, heq]
  · by_cases heq : y = x
    · simp [setStopping, heq]
    · simpa [setStopping, heq] using hy

/-- `Stop` where no `Start` may make executors. -/
lemma Steady.stop (hs : s.Steady) (hnone : ∀ c, s.mayMake c = false) : s.stop.Steady := by
  have hframe : s.stop.stopping = false → s.stopping = false ∧ s.stop.table = s.table := by
    simp [SchedLife.stop]
  refine ⟨hs.fault, fun x hx => ?_, fun he => ?_, fun c => ?_, fun he hmaking => ?_, fun _ => ?_⟩
  · rw [← hs.id x hx]
    simp only [SchedLife.stop]
    split <;> rfl
  · exact (hs.start he).of_frame rfl (fun _ => Iff.rfl) hframe
  · exact (hs.exact c).of_frame rfl rfl (fun _ => Iff.rfl) hframe
  · exact (hs.done he hmaking).of_frame rfl (fun _ => Iff.rfl) hframe
  · exact ⟨rfl, hs.stop_flags hnone, hnone⟩

lemma Effect.steady (h : Effect s a s') (hl : s.Locked) (hb : s.Bounded) (hs : s.Steady)
    (hG : s.StopApart a) : s'.Steady := by
  have hexact : ∀ {c pc}, s.callers c = pc → s.Exact pc := fun hpc => hpc ▸ hs.exact _
  have hin : ∀ {c pc}, s.callers c = pc → pc.inside = true → (s.callers c).inside = true := by
    intro c pc hpc hin
    rwa [hpc]
  cases h with
  | call hpc =>
    refine hs.outside (by simp [hpc, StartPc.making]) rfl rfl (fun _ => ?_) rfl rfl rfl rfl rfl rfl
      rfl rfl rfl
    simp [mayMake, setCaller, StartPc.making]
  | leave hpc =>
    refine hs.outside hpc rfl rfl (fun _ => ?_) rfl rfl rfl rfl rfl rfl rfl rfl rfl
    simp [mayMake, setCaller, StartPc.making]
  | pass hpc hrun =>
    refine hs.outside (by simp [hpc, StartPc.making]) rfl rfl (fun hst => ?_) rfl rfl rfl rfl rfl
      rfl rfl rfl rfl
    simp [hrun] at hst
  | lock hpc hfree => exact hs.lock hl hpc hfree
  | settle hpc hle =>
    have hshape := hexact hpc
    refine hl.steady (hin hpc rfl) (hs.running hpc rfl) rfl rfl rfl hs.fault hs.id ?_
    exact ⟨Nat.zero_le _, hshape.made, hshape.born, hshape.table⟩
  | make hpc hlt hroom => exact hs.make hl hpc hlt
  | full hpc hlt hroom =>
    -- the table is not as long as the larger of the two counts
    have hshape := (hexact hpc).2
    have hlen := congrArg List.length (hshape.table (hs.running hpc rfl))
    have hminmax := hb.min_le_max
    simp only [List.length_range] at hlen
    omega
  | created hpc hle =>
    obtain ⟨hi, hshape⟩ := hexact hpc
    refine hl.steady (hin hpc rfl) (hs.running hpc rfl) rfl rfl rfl hs.fault hs.id ?_
    obtain rfl : _ = s.more := Nat.le_antisymm hi (by unfold more; omega)
    exact ⟨hshape.made, hshape.born, hshape.table⟩
  | launch hpc => exact hs.launch hl hpc
  | pushBack hpc =>
    obtain ⟨rfl, hmore, hshape⟩ := hexact hpc
    refine hl.steady (hin hpc rfl) (hs.running hpc rfl) rfl rfl rfl hs.fault hs.id ?_
    refine ⟨hmore, hshape.made, hshape.born, fun hrun => ?_⟩
    show s.table ++ [_] = _
    rw [hshape.table hrun, List.range_succ (n := _ + 1)]
  | dispatcher hpc =>
    have hshape := hexact hpc
    refine hl.steady (hin hpc rfl) (hs.running hpc rfl) rfl rfl rfl hs.fault hs.id ?_
    exact ⟨hshape.made, hshape.born, hshape.table⟩
  | front hpc htable =>
    have hshape := hexact hpc
    have hrun := hs.running hpc rfl
    refine hl.steady (hin hpc rfl) hrun rfl rfl rfl hs.fault hs.id ?_
    refine ⟨?_, hshape.made, hshape.born, hshape.table⟩
    have hhead := hshape.table hrun
    rw [htable, List.range_succ_eq_map] at hhead
    exact (List.cons.inj hhead).1
  | noFront hpc htable =>
    have hfull := (hexact hpc).table (hs.running hpc rfl)
    simp [htable] at hfull
  | @thread _ x pc hborn hpc =>
    refine hs.of_frame rfl (fun _ => rfl) (fun _ h => h) rfl rfl (fun y => ?_) rfl rfl rfl rfl rfl
    by_cases heq : y = x
    · simp [setThread, heq, hborn, hpc]
    · simp [setThread, heq]
  | terminate | dispatch =>
    exact hs.of_frame rfl (fun _ => rfl) (fun _ h => h) rfl rfl (fun _ => Iff.rfl) rfl rfl rfl rfl
      rfl
  | flag x => exact hs.flag x
  | stop => exact hs.stop (hG rfl)

lemma reachable_steady (h : lifeSystem.ReachableUnder StopApart s) : s.Steady := by
  have hs : (s.Locked ∧ s.Bounded) ∧ s.Steady := by
    refine effect_invariant (I := fun s => (s.Locked ∧ s.Bounded) ∧ s.Steady) ?_ ?_ h
    · refine ⟨⟨reachable_locked (G := StopApart) (.init rfl),
        reachable_bounded (G := StopApart) (.init rfl)⟩, ?_⟩
      refine ⟨rfl, fun x hx => ?_, fun _ => ⟨rfl, fun x => ?_, fun _ => rfl⟩, fun _ => trivial,
        fun he => absurd rfl he, fun hst => by cases hst⟩
      · obtain rfl : x = 0 := Nat.lt_one_iff.mp hx
        rfl
      · simp
        omega
    · exact fun s a s' hs hG h =>
        ⟨⟨h.locked hs.1.1, h.bounded hs.1.1 hs.1.2⟩, h.steady hs.1.1 hs.1.2 hs.2 hG⟩
  exact hs.2

/-! ## The results -/

/-- A thread is in `Process` of executor `x`: the caller `c` of `Start`, or the thread made for
executor `y`. -/
def Runs (s : SchedLife) (x : ℕ) : ℕ ⊕ ℕ → Prop
  | .inl c => s.callers c = .process x
  | .inr y => y = x ∧ s.threads y = .processing

/-- What `Start` has made when it calls `Process`. -/
structure Started (s : SchedLife) : Prop where
  made : (s.made : ℤ) = max 1 s.minThreadCnt
  threads : ∀ x, s.threads x ≠ .unborn ↔ 1 ≤ x ∧ x < s.made
  dispatchers : s.dispatchers.length = s.dispatcherCount
  table : s.stopping = false → s.table = List.range s.made

/-- What `Stop` has left. -/
structure Stopped (s : SchedLife) : Prop where
  table : s.table = []
  isStopping : ∀ x < s.made, (s.objects x).isStopping = true

lemma Shape.started (hs : s.Shape (s.more + 1) (s.more + 1) (s.more + 1))
    (hdisp : s.dispatchers.length = s.dispatcherCount) : s.Started := by
  have hmade := hs.made
  refine ⟨?_, ?_, hdisp, ?_⟩
  · unfold more at hmade
    omega
  · rw [hmade]
    exact hs.born
  · rw [hmade]
    exact hs.table

/-- A started scheduler is the one of `Model/SchedCalls.lean`. -/
lemma Started.scheduler (h : s.Started) (hrun : s.stopping = false) :
    s.scheduler = .started (s.made - 1) s.objects := by
  have hmade := h.made
  simp only [SchedLife.scheduler, CoScheduler.started, h.table hrun, List.length_range, hrun]
  congr 1
  omega

/-- **One thread for each executor.**  Where `Stop` does not come between the test of `m_stopping`
and the call of `Process` in a `Start`, no two threads are ever in `Process` of one executor, the
`i`-th executor has id `i`, a `Stop` leaves no executor unstopped, and when `Start` calls `Process`,
which it does of executor `0`, there are as many executors as it was asked for, each of the others
with a thread of its own: the scheduler is a started one of `Model/SchedCalls.lean`. -/
theorem one_thread_each (h : lifeSystem.ReachableUnder StopApart s) :
    s.fault = none ∧ (∀ x < s.made, (s.objects x).id = x) ∧
      (∀ x p p', s.Runs x p → s.Runs x p' → p = p') ∧
      (s.stopping = true → s.Stopped) ∧
      ∀ c x, s.callers c = .process x → x = 0 ∧ s.Started ∧
        (s.stopping = false → s.scheduler = .started (s.made - 1) s.objects) := by
  have hl := reachable_locked h
  have hb := reachable_bounded h
  have hs := reachable_steady h
  have hmain : ∀ c x, s.callers c = .process x → x = 0 ∧ s.Started := by
    intro c x hc
    have hexact := hs.exact c
    have hstage := hb.stage c
    rw [hc] at hexact hstage
    exact ⟨hexact.1, hexact.2.started hstage⟩
  refine ⟨hs.fault, hs.id, fun x p p' hp hp' => ?_, fun hst => ?_, fun c x hc => ?_⟩
  · -- executor `0` has no thread of its own, and the other executors have no caller of `Start`
    have hother : ∀ c y, s.callers c = .process x → ¬ (y = x ∧ s.threads y = .processing) := by
      rintro c y hc ⟨rfl, hy⟩
      obtain ⟨rfl, hstarted⟩ := hmain c y hc
      have hborn := (hstarted.threads 0).mp (by simp [hy])
      exact Nat.not_succ_le_zero 0 hborn.1
    cases p with
    | inl c =>
      cases p' with
      | inl c' =>
        have hin : (s.callers c).inside = true := by rw [show s.callers c = _ from hp]; rfl
        have hin' : (s.callers c').inside = true := by rw [show s.callers c' = _ from hp']; rfl
        have heq := (hl.inside c hin).symm.trans (hl.inside c' hin')
        rw [(List.cons.inj heq).1]
      | inr y => exact absurd hp' (hother c y hp)
    | inr y =>
      cases p' with
      | inl c => exact absurd hp (hother c y hp')
      | inr y' => rw [hp.1, hp'.1]
  · obtain ⟨hnil, hflags, -⟩ := hs.stopped hst
    exact ⟨hnil, hflags⟩
  · obtain ⟨hx, hstarted⟩ := hmain c x hc
    exact ⟨hx, hstarted, hstarted.scheduler⟩

/-- Once `Start` has called `Process`, a `Stop` comes too late to disturb it. -/
lemma Locked.stopApart {x : ℕ} (h : s.Locked) (hc : s.callers c = .process x) :
    s.StopApart .stop := by
  have hin : (s.callers c).inside = true := by
    rw [hc]
    rfl
  have hmtx : s.startedMtx = true := by
    rw [← Bool.not_eq_false]
    intro hfree
    simpa [h.free hfree] using h.inside c hin
  intro _ c'
  by_cases heq : c' = c
  · rw [mayMake, heq, hc]
    rfl
  · have hout := h.not_inside hin heq
    obtain ⟨pc, hpc⟩ : ∃ pc, s.callers c' = pc := ⟨_, rfl⟩
    rw [hpc] at hout
    rw [mayMake, hpc]
    cases pc with
    | tryLock => simp [hmtx]
    | process => rfl
    | _ => exact hout

/-- `Start` with two executors calls `Process`, the other executor has its thread in `Process`, and
`Stop` is called. -/
theorem one_thread_each_stopped :
    ∃ s, lifeSystem.ReachableUnder StopApart s ∧ s.made = 2 ∧ s.stopping = true ∧
      s.Runs 0 (.inl 0) ∧ s.Runs 1 (.inr 1) ∧ s.fault = none ∧ s.Stopped := by
  obtain ⟨s, hs, hp⟩ := exists_reachable_of_runUnder (G := fun _ a => a ≠ .stop)
    (M := lifeSystem)
    (List.flatten [[.start 0 2 3, .begin 1 0 0], List.replicate 9 (.caller 0 8), [.executor 1]])
    (fun s => s.callers 0 = .process 0 && s.threads 1 = .processing && s.made = 2 &&
      s.fault = none && !s.terminated) rfl (by decide)
  simp only [Bool.and_eq_true, decide_eq_true_eq, Bool.not_eq_true'] at hp
  obtain ⟨⟨⟨⟨hmain, hthread⟩, hmade⟩, hfault⟩, halive⟩ := hp
  have hs' : lifeSystem.ReachableUnder StopApart s := hs.weaken fun _ _ hne heq => absurd heq hne
  have hstep : s.step .stop = some s.stop := by simp [step, hfault, halive]
  have hstop : lifeSystem.ReachableUnder StopApart s.stop :=
    .step (a := .stop) hs' ((reachable_locked hs').stopApart hmain) hstep
  have heach := one_thread_each hstop
  exact ⟨s.stop, hstop, hmade, rfl, hmain, ⟨rfl, hthread⟩, heach.1, heach.2.2.2.1 rfl⟩

/-- A `Stop` in the middle of a `Start`: `front` finds an empty table, or an executor that has a
thread already. -/
theorem stop_amid_start :
    (∃ s, lifeSystem.Reachable s ∧ s.fault = some .outOfBounds) ∧
      ∃ s, lifeSystem.Reachable s ∧ s.stopping = true ∧ s.Runs 1 (.inl 0) ∧ s.Runs 1 (.inr 1) := by
  constructor
  · obtain ⟨s, hs, hp⟩ := exists_reachable_of_runUnder (G := fun _ _ => True) (M := lifeSystem)
      (List.flatten [[.start 0 1 0], List.replicate 5 (.caller 0 8), [.stop, .caller 0 8]])
      (fun s => s.fault = some .outOfBounds) rfl (by decide)
    exact ⟨s, hs, by simpa using hp⟩
  · obtain ⟨s, hs, hp⟩ := exists_reachable_of_runUnder (G := fun _ _ => True) (M := lifeSystem)
      (List.flatten [[.start 0 2 0], List.replicate 5 (.caller 0 8), [.stop],
        List.replicate 4 (.caller 0 8), [.executor 1]])
      (fun s => s.stopping && s.callers 0 = .process 1 && s.threads 1 = .processing) rfl
      (by decide)
    simp only [Bool.and_eq_true, decide_eq_true_eq] at hp
    exact ⟨s, hs, hp.1.1, hp.1.2, rfl, hp.2⟩

/-! ## `Stop` in the other models -/

lemma stopLoop_eq (size : ℕ) {l : List ℕ} (hl : ∀ i ∈ l, i < size) (t : Executors) :
    CoScheduler.stopLoop size l t =
      .ok fun i => if i ∈ l then { t i with isStopping := true } else t i := by
  induction l generalizing t with
  | nil => simp [CoScheduler.stopLoop]
  | cons i l ih =>
    obtain ⟨hi, hl⟩ := List.forall_mem_cons.mp hl
    simp only [CoScheduler.stopLoop, executorAt_of_lt hi, ok_bind, ih hl]
    congr 1
    funext j
    by_cases heq : j = i
    · simp [heq]
    · simp [heq]

/-- Beside the executors of a started scheduler, or of a stopped one, `Stop` is the `Stop` of
`Model/SchedCalls.lean`: this links the runs of `Model/SchedLife.lean` to the calls there. -/
lemma scheduler_stop (htable : s.table = List.range s.table.length) :
    s.scheduler.stop = .ok s.stop.scheduler := by
  have hlt : ∀ i ∈ List.range s.table.length, i < s.table.length := fun i hi => List.mem_range.mp hi
  simp only [CoScheduler.stop, SchedLife.scheduler, stopLoop_eq _ hlt, ok_bind]
  rw [← htable]
  rfl

end SchedLife

end CoroutineCpp
