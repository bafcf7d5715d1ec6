import CoroutineCpp.Framework.Accounting
import CoroutineCpp.Properties.DispatchMoves

/-!
# What one queue operation of a dispatcher pass does

The facts every property of `DispatchTasksEqually` rests on, whatever other threads do between
its queue operations:

* `DispatchState.Wf` — the invariant of the local variables.  It mentions no executor, so no
  interference can break it: `step_wf` preserves it for every table and every answer of
  `IsBlocking()`.
* `step_effect` — a step reads, steals or hands out (`StepEffect`).  It moves tasks between the
  runnable queues and the hands of the pass, and neither loses nor copies one
  (`StepEffect.pool_eq`); nothing of an executor but its runnable queue is touched
  (`StepEffect.frame`).
* `step_inBounds` — no index leaves a table that keeps its size.
-/

namespace CoroutineCpp

open Framework Finset

/-! ## The runnable queues of the first `n` executors -/

/-- The tasks in the runnable queues of the first `n` executors. -/
def runnables (n : ℕ) (t : Executors) : Multiset CoTaskPtr :=
  total n fun i => (t i).runnableQueue

/-- The tasks in runnable queues together with those a pass has in hand. -/
def pool (n : ℕ) (t : Executors) (d : DispatchState) : Multiset CoTaskPtr :=
  runnables n t + (d.outstanding : Multiset CoTaskPtr)

/-- Appending to a runnable queue adds those tasks to the total. -/
lemma runnables_append {n i : ℕ} (hi : i < n) {t : Executors} {ex : CoExecutor}
    {tks : List CoTaskPtr} (h : ex.runnableQueue = (t i).runnableQueue ++ tks) :
    runnables n (Function.update t i ex) = runnables n t + (tks : Multiset CoTaskPtr) :=
  total_update_append CoExecutor.runnableQueue hi h

/-- Taking the front of a runnable queue removes that task from the total. -/
lemma runnables_pop {n i : ℕ} (hi : i < n) {t : Executors} {ex : CoExecutor} {tk : CoTaskPtr}
    (h : (t i).runnableQueue = tk :: ex.runnableQueue) :
    runnables n t = tk ::ₘ runnables n (Function.update t i ex) :=
  total_update_remove CoExecutor.runnableQueue hi (.of_eq h)

/-- Cutting a block off the back of a runnable queue removes those tasks from the total. -/
lemma runnables_cut {n i : ℕ} (hi : i < n) {t : Executors} {ex : CoExecutor}
    {block : List CoTaskPtr} (h : (t i).runnableQueue = ex.runnableQueue ++ block) :
    runnables n t = runnables n (Function.update t i ex) + (block : Multiset CoTaskPtr) :=
  total_append hi (fun j hj => by simp [hj]) (by simpa using h)

/-- An executor whose runnable queue is the same counts the same. -/
lemma runnables_update_of_eq (n : ℕ) {i : ℕ} {t : Executors} {ex : CoExecutor}
    (h : ex.runnableQueue = (t i).runnableQueue) :
    runnables n (Function.update t i ex) = runnables n t :=
  total_update_of_eq CoExecutor.runnableQueue h

lemma pool_update_of_eq (n : ℕ) {i : ℕ} {t : Executors} {ex : CoExecutor} (d : DispatchState)
    (h : ex.runnableQueue = (t i).runnableQueue) :
    pool n (Function.update t i ex) d = pool n t d := by
  rw [pool, pool, runnables_update_of_eq n h]

lemma mem_runnables {n : ℕ} {t : Executors} {tk : CoTaskPtr} :
    tk ∈ runnables n t ↔ ∃ i < n, tk ∈ (t i).runnableQueue :=
  mem_total

/-- A new runnable queue for one executor leaves the rest of every executor as it is. -/
lemma runnableQueue_frame {t t' : Executors} {idx : ℕ} {queue : List CoTaskPtr}
    (h : t' = Function.update t idx { t idx with runnableQueue := queue }) (i : ℕ) :
    t' i = { t i with runnableQueue := (t' i).runnableQueue } := by
  by_cases hi : i = idx
  · subst hi
    simp [h]
  · simp [h, hi]

namespace DispatchState

/-! ## The two operations that move tasks -/

/-- Stealing cuts a block off the back of one runnable queue. -/
lemma stealFrom_eq (idx load : ℕ) (blocking : Bool) (d : DispatchState) (t : Executors) :
    ∃ kept block, (t idx).runnableQueue = kept ++ block ∧
      d.stealFrom idx load blocking t = ({ d with stolen := d.stolen ++ block },
        Function.update t idx { t idx with runnableQueue := kept }) := by
  obtain ⟨kept, block, hsplit, heq, -⟩ :=
    (t idx).giveUpTasks_split d.stolen (if blocking then 0 else wrapSub load d.avgLoad)
  exact ⟨kept, block, hsplit, by simp [stealFrom, heq]⟩

/-- Handing out up to `last` pushes the next stolen tasks, in order. -/
lemma handTo_eq (idx : ℕ) {last : ℕ} {d : DispatchState} (t : Executors) (hfirst : d.first ≤ last) :
    ∃ batch, d.outstanding = batch ++ (d.stolen.drop last) ∧
      d.stolen.take last = d.stolen.take d.first ++ batch ∧
      d.handTo idx last t =
        ({ d with first := last, handed := d.handed ++ batch.map fun tk => (idx, tk) },
          Function.update t idx
            { t idx with runnableQueue := (t idx).runnableQueue ++ batch }) := by
  refine ⟨(d.stolen.drop d.first).take (last - d.first), ?_, ?_, by simp [handTo]⟩
  · rw [outstanding]
    conv_lhs => rw [← List.take_append_drop (last - d.first) (d.stolen.drop d.first)]
    rw [List.drop_drop, Nat.add_sub_cancel' hfirst]
  · rw [← List.take_append_drop d.first (d.stolen.take last), List.take_take,
      Nat.min_eq_left hfirst, List.drop_take]

/-! ## The invariant of the local variables -/

/-- What holds of the local variables at each point of a pass.  At `giveUp` and `handOut` it says
that the two subtractions of the source, `load - avg_load` and `avg_load - load`, do not wrap. -/
def PcOk (d : DispatchState) : Prop :=
  match d.pc with
  | .idle => d.first = d.stolen.length
  | .countRunnable i | .countWaiting i =>
    i < d.executorCount ∧ d.stolen = [] ∧ d.lowLoad = []
  | .readMin => 0 < d.executorCount ∧ d.stolen = []
  | .readLoad idx => idx < d.executorCount ∧ d.minLoadIdx < d.executorCount ∧ d.first = 0
  | .giveUp idx load =>
    idx < d.executorCount ∧ d.minLoadIdx < d.executorCount ∧ d.first = 0 ∧ d.avgLoad < load
  | .handOut items => d.minLoadIdx < d.executorCount ∧ d.first < d.stolen.length ∧
    ∀ p ∈ items, p.1 < d.executorCount ∧ p.2 ≤ d.avgLoad
  | .rest => d.minLoadIdx < d.executorCount ∧ d.first < d.stolen.length
  | .outOfBounds => True

/-- The books of a pass: what was pushed is what `first` has passed, and the map of low-load
executors holds valid indices with loads not above the average. -/
structure Books (d : DispatchState) : Prop where
  first_le : d.first ≤ d.stolen.length
  handed_eq : d.handed.map Prod.snd = d.stolen.take d.first
  handed_lt : ∀ p ∈ d.handed, p.1 < d.executorCount
  lowLoad_ok : ∀ p ∈ d.lowLoad, p.1 < d.executorCount ∧ p.2 ≤ d.avgLoad

/-- The invariant of the local variables of a pass. -/
structure Wf (d : DispatchState) : Prop extends Books d where
  pcOk : d.PcOk

lemma start_wf (size : ℕ) : (start size).Wf := by
  by_cases h : 0 < size <;> refine ⟨?_, ?_⟩ <;> (try constructor) <;> simp [start, PcOk, h]

/-- A pass that is not running has nothing in hand. -/
lemma Wf.outstanding_eq_nil {d : DispatchState} (hd : d.Wf) (hpc : d.pc = .idle) :
    d.outstanding = [] := by
  have h := hd.pcOk
  simp only [PcOk, hpc] at h
  simp [outstanding, h]

/-- The books do not depend on the point the pass is at. -/
lemma Books.goto {d : DispatchState} (hd : d.Books) (pc : DispatchPc) :
    ({ d with pc := pc } : DispatchState).Books :=
  ⟨hd.first_le, hd.handed_eq, hd.handed_lt, hd.lowLoad_ok⟩

/-! ### Control transfers -/

lemma Books.afterCount {d : DispatchState} (hd : d.Books) (hn : 0 < d.executorCount)
    (hs : d.stolen = []) (hl : d.lowLoad = []) : d.afterCount.Wf := by
  have hf : d.first = 0 := by simpa [hs] using hd.first_le
  simp only [DispatchState.afterCount]
  split
  · exact ⟨hd.goto _, by simp [PcOk, hf, hs]⟩
  · exact ⟨⟨hd.first_le, hd.handed_eq, hd.handed_lt, by simp [hl]⟩, hn, hs⟩

lemma Books.nextLoad {d : DispatchState} (hd : d.Books) (idx : ℕ)
    (hmin : d.minLoadIdx < d.executorCount) (hf : d.first = 0) : (d.nextLoad idx).Wf := by
  unfold DispatchState.nextLoad
  split
  next hidx => exact ⟨hd.goto _, hidx, hmin, hf⟩
  next =>
    split
    next hs => exact ⟨hd.goto _, by simp [PcOk, hf, hs]⟩
    next hs =>
      refine ⟨hd.goto _, hmin, ?_, hd.lowLoad_ok⟩
      simpa [hf, List.length_pos_iff] using hs

lemma Books.afterHandOut {d : DispatchState} (hd : d.Books)
    (hmin : d.minLoadIdx < d.executorCount) : d.afterHandOut.Wf := by
  unfold DispatchState.afterHandOut
  split
  next hlt => exact ⟨hd.goto _, hmin, hlt⟩
  next hge => exact ⟨hd.goto _, le_antisymm hd.first_le (not_lt.mp hge)⟩

lemma Books.outOfBounds {d : DispatchState} (hd : d.Books) :
    ({ d with pc := .outOfBounds } : DispatchState).Wf :=
  ⟨hd.goto _, trivial⟩

/-! ### Loop bodies -/

/-- The least load is noted for an index that was counted. -/
lemma noteMin_ok {idx load : ℕ} {d d₁ : DispatchState} (hidx : idx < d.executorCount)
    (hmin : d.minLoadIdx < d.executorCount) (hf : d.first = 0) (hd₁ : d₁ = d.noteMin idx load) :
    idx < d₁.executorCount ∧ d₁.minLoadIdx < d₁.executorCount ∧ d₁.first = 0 := by
  subst hd₁
  unfold noteMin
  split
  · exact ⟨hidx, hidx, hf⟩
  · exact ⟨hidx, hmin, hf⟩

lemma Books.noteMin {d : DispatchState} (hd : d.Books) (idx load : ℕ) :
    (d.noteMin idx load).Books := by
  unfold DispatchState.noteMin
  split
  · exact ⟨hd.first_le, hd.handed_eq, hd.handed_lt, hd.lowLoad_ok⟩
  · exact hd

/-- The map grows by one item, whose load is not above the average. -/
lemma Books.noteLowLoad {d : DispatchState} (hd : d.Books) {idx load : ℕ}
    (hidx : idx < d.executorCount) (hload : load ≤ d.avgLoad) : (d.noteLowLoad idx load).Books := by
  refine ⟨hd.first_le, hd.handed_eq, hd.handed_lt, fun p hp => ?_⟩
  rcases List.mem_append.mp hp with hp | hp
  · exact hd.lowLoad_ok p hp
  · obtain rfl : p = (idx, load) := by simpa using hp
    exact ⟨hidx, hload⟩

lemma Books.stealFrom {d : DispatchState} (hd : d.Books) (hf : d.first = 0) (idx load : ℕ)
    (blocking : Bool) (t : Executors) : (d.stealFrom idx load blocking t).1.Books := by
  obtain ⟨kept, block, -, heq⟩ := stealFrom_eq idx load blocking d t
  rw [heq]
  refine ⟨by simp [hf], ?_, hd.handed_lt, hd.lowLoad_ok⟩
  simpa [hf] using hd.handed_eq

/-- The hand-out keeps the pushes equal to the part of the stolen sequence before `first`. -/
lemma Books.handTo {d : DispatchState} (hd : d.Books) {idx last : ℕ} (t : Executors)
    (hidx : idx < d.executorCount) (hfirst : d.first ≤ last) (hlast : last ≤ d.stolen.length) :
    (d.handTo idx last t).1.Books := by
  obtain ⟨batch, -, htake, heq⟩ := handTo_eq idx t hfirst
  rw [heq]
  refine ⟨hlast, ?_, ?_, hd.lowLoad_ok⟩
  · simp [hd.handed_eq, htake, Function.comp_def]
  · intro p hp
    rcases List.mem_append.mp hp with hp | hp
    · exact hd.handed_lt p hp
    · obtain ⟨tk, -, rfl⟩ := List.mem_map.mp hp
      exact hidx

lemma le_supplyEnd {d : DispatchState} (hd : d.Books) (load : ℕ) : d.first ≤ d.supplyEnd load := by
  simp [supplyEnd, hd.first_le]

/-- A donation that is due ends behind `first`. -/
lemma lt_supplyEnd {load : ℕ} {d : DispatchState} (hlt : d.first < d.stolen.length)
    (hsupply : wrapSub d.avgLoad load ≠ 0) : d.first < d.supplyEnd load := by
  rw [supplyEnd]
  omega

lemma supplyEnd_le (d : DispatchState) (load : ℕ) : d.supplyEnd load ≤ d.stolen.length :=
  min_le_right _ _

/-! ### Every step -/

/-- The index that the next operation uses is one of those the pass has counted. -/
lemma Wf.access_lt {d : DispatchState} (hd : d.Wf) {idx : ℕ} (h : d.access = some idx) :
    idx < d.executorCount := by
  have hok := hd.pcOk
  unfold access at h
  cases hpc : d.pc with
  | idle | outOfBounds => simp [hpc] at h
  | handOut items =>
    cases items with
    | nil => simp [hpc] at h
    | cons item items =>
      simp only [PcOk, hpc] at hok
      simp only [hpc] at h
      obtain ⟨-, h⟩ := Option.ite_none_left_eq_some.mp h
      obtain rfl := Option.some.inj h
      exact (hok.2.2 item (by simp)).1
  | _ =>
    simp only [PcOk, hpc] at hok
    simp only [hpc, Option.some.injEq] at h
    exact h ▸ hok.1

lemma step_wf {size : ℕ} {blocking : Bool} {d d' : DispatchState} {t t' : Executors}
    (hd : d.Wf) (h : d.step size blocking t = some (d', t')) : d'.Wf := by
  have hok := hd.pcOk
  have hb := hd.toBooks
  cases step_move h with
  | outOfBounds => exact hb.outOfBounds
  | countRunnable hpc =>
    simp only [PcOk, hpc] at hok
    exact ⟨⟨hb.first_le, hb.handed_eq, hb.handed_lt, hb.lowLoad_ok⟩, hok⟩
  | countWaiting hpc hi hnext =>
    simp only [PcOk, hpc] at hok
    exact ⟨⟨hb.first_le, hb.handed_eq, hb.handed_lt, hb.lowLoad_ok⟩, hnext, hok.2⟩
  | @counted i hpc =>
    simp only [PcOk, hpc] at hok
    have hb' : ({ d with totalWaitings := d.totalWaitings + (t i).getWaitingCount } :
        DispatchState).Books := ⟨hb.first_le, hb.handed_eq, hb.handed_lt, hb.lowLoad_ok⟩
    exact hb'.afterCount (Nat.zero_lt_of_lt hok.1) hok.2.1 hok.2.2
  | readMin hpc =>
    simp only [PcOk, hpc] at hok
    have hb' : ({ d with minLoadIdx := 0, minLoad := (t 0).getRunnableCount } :
        DispatchState).Books := ⟨hb.first_le, hb.handed_eq, hb.handed_lt, hb.lowLoad_ok⟩
    exact hb'.nextLoad 0 hok.1 (by simpa [hok.2] using hb.first_le)
  | @readDonor idx load d₁ hpc _ _ hd₁ hload =>
    simp only [PcOk, hpc] at hok
    obtain ⟨hidx, hmin, hf⟩ := noteMin_ok hok.1 hok.2.1 hok.2.2 hd₁
    exact ⟨(hd₁ ▸ hb.noteMin idx load).goto _, hidx, hmin, hf, hload⟩
  | @readLow idx load d₁ hpc _ _ hd₁ hload =>
    simp only [PcOk, hpc] at hok
    obtain ⟨hidx, hmin, hf⟩ := noteMin_ok hok.1 hok.2.1 hok.2.2 hd₁
    exact ((hd₁ ▸ hb.noteMin idx load).noteLowLoad hidx hload).nextLoad _ hmin hf
  | @giveUp idx load hpc =>
    simp only [PcOk, hpc] at hok
    obtain ⟨-, hmin, hf, -⟩ := hok
    exact (hb.stealFrom hf idx load blocking t).nextLoad _ hmin hf
  | handOutEnd hpc =>
    simp only [PcOk, hpc] at hok
    exact hb.afterHandOut hok.1
  | handOutSkip hpc =>
    simp only [PcOk, hpc, List.forall_mem_cons] at hok
    exact ⟨hb.goto _, hok.1, hok.2.1, hok.2.2.2⟩
  | @handOut idx load items hpc _ _ hmore =>
    simp only [PcOk, hpc, List.forall_mem_cons] at hok
    obtain ⟨hmin, -, ⟨hidx, -⟩, hrest⟩ := hok
    have hb' := hb.handTo t hidx (le_supplyEnd hb load) (d.supplyEnd_le load)
    exact ⟨hb'.goto _, hmin, hmore, hrest⟩
  | @handOutLast idx load items hpc =>
    simp only [PcOk, hpc, List.forall_mem_cons] at hok
    obtain ⟨hmin, -, ⟨hidx, -⟩, -⟩ := hok
    exact (hb.handTo t hidx (le_supplyEnd hb load) (d.supplyEnd_le load)).afterHandOut hmin
  | rest hpc =>
    simp only [PcOk, hpc] at hok
    exact ⟨(hb.handTo t hok.1 hb.first_le le_rfl).goto _, rfl⟩

/-! ## What a step does to the executors -/

/-- The effect of one queue operation: a read, a steal from the back of one runnable queue, or a
push of a non-empty batch of the tasks in hand. -/
inductive StepEffect (d d' : DispatchState) (t t' : Executors) : Prop
  | read (ht : t' = t) (ho : d'.outstanding = d.outstanding)
  | steal (idx load : ℕ) (kept block : List CoTaskPtr) (hpc : d.pc = .giveUp idx load)
      (hidx : idx < d.executorCount) (hq : (t idx).runnableQueue = kept ++ block)
      (ht : t' = Function.update t idx { t idx with runnableQueue := kept })
      (ho : d'.outstanding = d.outstanding ++ block)
  | hand (idx : ℕ) (batch : List CoTaskPtr) (hidx : idx < d.executorCount) (hne : batch ≠ [])
      (ho : d.outstanding = batch ++ d'.outstanding)
      (ht : t' = Function.update t idx
        { t idx with runnableQueue := (t idx).runnableQueue ++ batch })

@[simp] lemma nextLoad_outstanding (idx : ℕ) (d : DispatchState) :
    (d.nextLoad idx).outstanding = d.outstanding := by
  unfold nextLoad
  split_ifs <;> rfl

@[simp] lemma afterHandOut_outstanding (d : DispatchState) :
    d.afterHandOut.outstanding = d.outstanding := by
  unfold afterHandOut
  split_ifs <;> rfl

@[simp] lemma afterCount_outstanding (d : DispatchState) :
    d.afterCount.outstanding = d.outstanding := by
  simp only [afterCount]
  split_ifs <;> rfl

lemma noteMin_outstanding (idx load : ℕ) (d : DispatchState) :
    (d.noteMin idx load).outstanding = d.outstanding := by
  unfold noteMin
  split_ifs <;> rfl

@[simp] lemma nextLoad_executorCount (idx : ℕ) (d : DispatchState) :
    (d.nextLoad idx).executorCount = d.executorCount := by
  unfold nextLoad
  split_ifs <;> rfl

@[simp] lemma noteMin_executorCount (idx load : ℕ) (d : DispatchState) :
    (d.noteMin idx load).executorCount = d.executorCount := by
  unfold noteMin
  split_ifs <;> rfl

@[simp] lemma afterHandOut_executorCount (d : DispatchState) :
    d.afterHandOut.executorCount = d.executorCount := by
  unfold afterHandOut
  split_ifs <;> rfl

@[simp] lemma afterCount_executorCount (d : DispatchState) :
    d.afterCount.executorCount = d.executorCount := by
  simp only [afterCount]
  split_ifs <;> rfl

/-- The pass counts the executors once. -/
lemma step_executorCount {size : ℕ} {blocking : Bool} {d d' : DispatchState} {t t' : Executors}
    (h : d.step size blocking t = some (d', t')) : d'.executorCount = d.executorCount := by
  cases step_move h with
  | readDonor _ _ _ hd₁ | readLow _ _ _ hd₁ => simp [hd₁, noteLowLoad]
  | giveUp => simp [stealFrom]
  | handOutLast => simp [handTo]
  | counted | readMin | handOutEnd => simp
  | _ => rfl

/-- A hand-out step pushes a batch that is not empty: something is left and something is due. -/
lemma handTo_batch (idx : ℕ) {last : ℕ} {d : DispatchState} (t : Executors)
    (hfirst : d.first < last) (hlast : last ≤ d.stolen.length) :
    ∃ batch, batch ≠ [] ∧ d.outstanding = batch ++ (d.handTo idx last t).1.outstanding ∧
      (d.handTo idx last t).2 = Function.update t idx
        { t idx with runnableQueue := (t idx).runnableQueue ++ batch } := by
  obtain ⟨batch, ho, -, heq⟩ := handTo_eq idx t hfirst.le
  refine ⟨batch, ?_, by rw [heq]; exact ho, by rw [heq]⟩
  rintro rfl
  have hlen := congrArg List.length ho
  simp only [outstanding, List.nil_append, List.length_drop] at hlen
  omega

lemma handTo_effect {idx last : ℕ} {d : DispatchState} (t : Executors)
    (hidx : idx < d.executorCount) (hfirst : d.first < last) (hlast : last ≤ d.stolen.length) :
    StepEffect d (d.handTo idx last t).1 t (d.handTo idx last t).2 := by
  obtain ⟨batch, hne, ho, ht⟩ := handTo_batch idx t hfirst hlast
  exact .hand idx batch hidx hne ho ht

lemma StepEffect.congr {d d₁ d₂ : DispatchState} {t t' : Executors} (h : StepEffect d d₁ t t')
    (ho : d₂.outstanding = d₁.outstanding) : StepEffect d d₂ t t' := by
  cases h with
  | read ht h => exact .read ht (ho.trans h)
  | steal idx load kept block hpc hidx hq ht h =>
    exact .steal idx load kept block hpc hidx hq ht (ho.trans h)
  | hand idx batch hidx hne h ht => exact .hand idx batch hidx hne (by rw [ho]; exact h) ht

/-- Every step has one of the three effects. -/
lemma step_effect {size : ℕ} {blocking : Bool} {d d' : DispatchState} {t t' : Executors}
    (hd : d.Wf) (h : d.step size blocking t = some (d', t')) : StepEffect d d' t t' := by
  have hok := hd.pcOk
  cases step_move h with
  | outOfBounds | countRunnable | countWaiting | handOutSkip => exact .read rfl rfl
  | counted => exact .read rfl (by rw [afterCount_outstanding]; rfl)
  | readMin => exact .read rfl (by rw [nextLoad_outstanding]; rfl)
  | readDonor _ _ _ hd₁ => exact .read rfl (hd₁ ▸ d.noteMin_outstanding _ _)
  | readLow _ _ _ hd₁ =>
    refine .read rfl ?_
    rw [nextLoad_outstanding]
    exact hd₁ ▸ d.noteMin_outstanding _ _
  | @giveUp idx load hpc =>
    simp only [PcOk, hpc] at hok
    obtain ⟨kept, block, hq, heq⟩ := stealFrom_eq idx load blocking d t
    rw [heq]
    refine .steal idx load kept block hpc hok.1 hq rfl ?_
    rw [nextLoad_outstanding]
    simp [outstanding, hok.2.2.1]
  | handOutEnd => exact .read rfl (by simp)
  | handOut hpc hsupply =>
    simp only [PcOk, hpc, List.forall_mem_cons] at hok
    obtain ⟨-, hlt, ⟨hidx, -⟩, -⟩ := hok
    exact (handTo_effect t hidx (lt_supplyEnd hlt hsupply) (d.supplyEnd_le _)).congr rfl
  | handOutLast hpc hsupply =>
    simp only [PcOk, hpc, List.forall_mem_cons] at hok
    obtain ⟨-, hlt, ⟨hidx, -⟩, -⟩ := hok
    exact (handTo_effect t hidx (lt_supplyEnd hlt hsupply) (d.supplyEnd_le _)).congr (by simp)
  | rest hpc =>
    simp only [PcOk, hpc] at hok
    exact (handTo_effect t hok.1 hok.2 le_rfl).congr rfl

/-- **A step neither loses nor copies a task.** -/
lemma StepEffect.pool_eq {n : ℕ} {d d' : DispatchState} {t t' : Executors}
    (h : StepEffect d d' t t') (hn : d.executorCount ≤ n) : pool n t' d' = pool n t d := by
  cases h with
  | read ht ho => rw [pool, pool, ht, ho]
  | steal idx load kept block _ hidx hq ht ho =>
    have hcut : runnables n t = runnables n t' + (block : Multiset CoTaskPtr) :=
      ht ▸ runnables_cut (hidx.trans_le hn) hq
    rw [pool, pool, ho, hcut, ← Multiset.coe_add]
    abel
  | hand idx batch hidx _ ho ht =>
    rw [pool, pool, ho, ht, runnables_append (hidx.trans_le hn) rfl, ← Multiset.coe_add]
    abel

/-- A step touches nothing of an executor but its runnable queue. -/
lemma StepEffect.frame {d d' : DispatchState} {t t' : Executors} (h : StepEffect d d' t t')
    (i : ℕ) : t' i = { t i with runnableQueue := (t' i).runnableQueue } := by
  cases h with
  | read ht _ => rw [ht]
  | steal _ _ _ _ _ _ _ ht _ | hand _ _ _ _ _ ht => exact runnableQueue_frame ht i

/-- The same of any step, whatever the state of the pass. -/
lemma step_frame {size : ℕ} {blocking : Bool} {d d' : DispatchState}
    {t t' : Executors} (h : d.step size blocking t = some (d', t')) (e : ℕ) :
    t' e = { t e with runnableQueue := (t' e).runnableQueue } := by
  have hsteal : ∀ idx load, (d.stealFrom idx load blocking t).2 e =
      { t e with runnableQueue := ((d.stealFrom idx load blocking t).2 e).runnableQueue } := by
    intro idx load
    obtain ⟨kept, block, -, heq⟩ := d.stealFrom_eq idx load blocking t
    exact runnableQueue_frame (congrArg Prod.snd heq) e
  have hhand : ∀ idx upto, (d.handTo idx upto t).2 e =
      { t e with runnableQueue := ((d.handTo idx upto t).2 e).runnableQueue } := by
    intro idx upto
    have heq : (d.handTo idx upto t).2 = Function.update t idx { t idx with
        runnableQueue := (t idx).runnableQueue ++
          (d.stolen.drop d.first).take (upto - d.first) } := by
      simp only [handTo, CoExecutor.addTasks_fst]
    exact runnableQueue_frame heq e
  cases step_move h with
  | giveUp => exact hsteal _ _
  | handOut | handOutLast | rest => exact hhand _ _
  | _ => rfl

/-! ## Indices -/

/-- The pass has not indexed out of bounds, and its count of the executors is `n`. -/
def InBounds (n : ℕ) (d : DispatchState) : Prop :=
  d.pc ≠ .outOfBounds ∧ d.executorCount = n

lemma InBounds.nextLoad {n : ℕ} {d : DispatchState} (h : d.executorCount = n) (idx : ℕ) :
    InBounds n (d.nextLoad idx) := by
  unfold DispatchState.nextLoad
  split_ifs <;> exact ⟨by simp, h⟩

lemma InBounds.afterHandOut {n : ℕ} {d : DispatchState} (h : d.executorCount = n) :
    InBounds n d.afterHandOut := by
  unfold DispatchState.afterHandOut
  split_ifs <;> exact ⟨by simp, h⟩

lemma InBounds.afterCount {n : ℕ} {d : DispatchState} (h : d.executorCount = n) :
    InBounds n d.afterCount := by
  simp only [DispatchState.afterCount]
  split_ifs <;> exact ⟨by simp, h⟩

/-- While the table has all the executors the pass counted, no index is out of bounds. -/
lemma step_inBounds {n size : ℕ} {blocking : Bool} {d d' : DispatchState} {t t' : Executors}
    (hd : d.Wf) (hn : InBounds n d) (hsize : n ≤ size)
    (h : d.step size blocking t = some (d', t')) : InBounds n d' := by
  have hcount := (step_executorCount h).trans hn.2
  cases step_move h with
  | outOfBounds haccess hidx =>
    have hlt := hd.access_lt haccess
    have hn := hn.2
    omega
  | counted => exact .afterCount (by simpa using hcount)
  | readMin | readLow | giveUp => exact .nextLoad (by simpa using hcount) _
  | handOutEnd | handOutLast => exact .afterHandOut (by simpa using hcount)
  | _ => exact ⟨by simp, hcount⟩

end DispatchState

end CoroutineCpp
