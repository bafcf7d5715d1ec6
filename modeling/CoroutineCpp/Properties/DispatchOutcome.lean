import CoroutineCpp.Framework.GreedyFill
import CoroutineCpp.Model.Dispatch

/-!
# The outcome of an undisturbed dispatcher pass

`dispatchTasksEqually` in closed form.  With the average load of the pass as the level, each
executor keeps a front part of its runnable queue and gives the rest (`kept`, `given`); what is
given, in index order, is `stolenTasks`; and the hand-out is a greedy fill of the requests
`nSupply` with that supply, the leftover going to the first least loaded executor
(`dispatchTasksEqually_eq`).

The two loops are brought into that form one after the other: `stealLoop_eq` and
`handOutLoop_eq`, both by induction on the number of executors still to visit.
-/

namespace CoroutineCpp

open Framework Finset

/-! ## The quantities of a pass -/

/-- The load of executor `i`, as the pass reads it. -/
abbrev load (t : Executors) (i : ℕ) : ℕ := (t i).getRunnableCount

/-- `avg_load`. -/
def avgLoad (n : ℕ) (t : Executors) : ℕ :=
  ((∑ i ∈ range n, load t i) + ∑ i ∈ range n, (t i).getWaitingCount) / n

/-- `n_supply` of executor `i`; nothing for a donor. -/
def nSupply (n : ℕ) (t : Executors) (i : ℕ) : ℕ := avgLoad n t - load t i

/-- What an executor keeps of its runnable queue `q`. -/
def kept (avg : ℕ) (blocking : Bool) (q : List CoTaskPtr) : List CoTaskPtr :=
  if avg < q.length ∧ blocking then [] else q.take avg

/-- What an executor gives of its runnable queue `q`. -/
def given (avg : ℕ) (blocking : Bool) (q : List CoTaskPtr) : List CoTaskPtr :=
  if avg < q.length ∧ blocking then q else q.drop avg

/-- `stolen`, when the stealing loop is through. -/
def stolenTasks (n : ℕ) (blocking : ℕ → Bool) (t : Executors) : List CoTaskPtr :=
  (List.range n).flatMap fun i => given (avgLoad n t) (blocking i) (t i).runnableQueue

/-- The runnable queue executor `i` ends with, when `k` is the one that was least loaded. -/
def queueAfter (n : ℕ) (blocking : ℕ → Bool) (t : Executors) (k i : ℕ) : List CoTaskPtr :=
  kept (avgLoad n t) (blocking i) (t i).runnableQueue ++
    share (stolenTasks n blocking t) (nSupply n t) i ++
    if i = k then leftover (stolenTasks n blocking t) (nSupply n t) n else []

lemma kept_append_given (avg : ℕ) (b : Bool) (q : List CoTaskPtr) :
    kept avg b q ++ given avg b q = q := by
  unfold kept given
  split <;> simp

lemma kept_of_le {avg : ℕ} {q : List CoTaskPtr} (h : q.length ≤ avg) (b : Bool) :
    kept avg b q = q := by
  rw [kept, if_neg (by omega), List.take_of_length_le h]

lemma given_of_le {avg : ℕ} {q : List CoTaskPtr} (h : q.length ≤ avg) (b : Bool) :
    given avg b q = [] := by
  rw [given, if_neg (by omega), List.drop_of_length_le h]

/-! ## Replacing the runnable queues of some executors -/

/-- The table in which the `k` executors from `i` on have the runnable queues `q`. -/
def setQueues (i k : ℕ) (q : ℕ → List CoTaskPtr) (t : Executors) : Executors := fun j =>
  if i ≤ j ∧ j < i + k then { t j with runnableQueue := q j } else t j

lemma setQueues_of_mem {i k j : ℕ} (h : i ≤ j ∧ j < i + k) (q : ℕ → List CoTaskPtr)
    (t : Executors) : setQueues i k q t j = { t j with runnableQueue := q j } := if_pos h

lemma setQueues_of_notMem {i k j : ℕ} (h : ¬ (i ≤ j ∧ j < i + k)) (q : ℕ → List CoTaskPtr)
    (t : Executors) : setQueues i k q t j = t j := if_neg h

@[simp] lemma setQueues_zero (i : ℕ) (q : ℕ → List CoTaskPtr) (t : Executors) :
    setQueues i 0 q t = t := by
  funext j
  exact setQueues_of_notMem (by omega) q t

lemma setQueues_succ (i k : ℕ) (q : ℕ → List CoTaskPtr) (t : Executors) :
    setQueues i (k + 1) q t =
      setQueues (i + 1) k q (Function.update t i { t i with runnableQueue := q i }) := by
  funext j
  by_cases hj : j = i
  · subst hj
    rw [setQueues_of_mem (by omega), setQueues_of_notMem (by omega), Function.update_self]
  · simp only [setQueues, Function.update_of_ne hj]
    congr 1
    rw [eq_iff_iff]
    omega

lemma setQueues_congr {i k : ℕ} {q q' : ℕ → List CoTaskPtr} (t : Executors)
    (h : ∀ j, i ≤ j → q j = q' j) : setQueues i k q t = setQueues i k q' t := by
  funext j
  unfold setQueues
  split
  next hj => rw [h j hj.1]
  next => rfl

/-- Writing the queues that are there changes nothing. -/
lemma setQueues_self {i k : ℕ} {q : ℕ → List CoTaskPtr} {t : Executors}
    (h : ∀ j, i ≤ j → j < i + k → q j = (t j).runnableQueue) : setQueues i k q t = t := by
  funext j
  unfold setQueues
  split
  next hj => rw [h j hj.1 hj.2]
  next => rfl

namespace DispatchState

/-! ## The stealing loop -/

lemma noteMin_eq (idx load : ℕ) (d : DispatchState) :
    d.noteMin idx load =
      { d with
        minLoad := if d.minLoad > load then load else d.minLoad
        minLoadIdx := if d.minLoad > load then idx else d.minLoadIdx } := by
  unfold noteMin
  split <;> rfl

/-- `GiveUpTasks` cuts the runnable queue at one position. -/
lemma giveUpTasks_at {ex : CoExecutor} {n p : ℕ} (giveups : ThreadSafeDeque CoTaskPtr)
    (hp : ex.runnableQueue.length -
      min (if n > 0 then n else ex.runnableQueue.length) ex.runnableQueue.length = p) :
    ex.giveUpTasks giveups n =
      ({ ex with runnableQueue := ex.runnableQueue.take p },
        giveups ++ ex.runnableQueue.drop p) := by
  subst hp
  rfl

/-- A donor gives what is above the average, or everything if it is blocking. -/
lemma stealFrom_of_lt {idx : ℕ} {d : DispatchState} {t : Executors} (b : Bool)
    (h : d.avgLoad < (t idx).runnableQueue.length) :
    d.stealFrom idx (t idx).runnableQueue.length b t =
      ({ d with stolen := d.stolen ++ given d.avgLoad b (t idx).runnableQueue },
        Function.update t idx
          { t idx with runnableQueue := kept d.avgLoad b (t idx).runnableQueue }) := by
  cases b with
  | true => simp [stealFrom, giveUpTasks_at (p := 0), kept, given, h]
  | false =>
    have hcut : (t idx).runnableQueue.length -
        min (if wrapSub (t idx).runnableQueue.length d.avgLoad > 0 then
            wrapSub (t idx).runnableQueue.length d.avgLoad
          else (t idx).runnableQueue.length) (t idx).runnableQueue.length = d.avgLoad := by
      rw [wrapSub_of_le h.le, if_pos (by omega)]
      omega
    simp [stealFrom, giveUpTasks_at _ hcut, kept, given]

/-- The items of `low_load_executors` among the indices in `l`, for the loads `f`. -/
def lowItems (avg : ℕ) (f : ℕ → ℕ) (l : List ℕ) : List (ℕ × ℕ) :=
  l.filterMap fun i => if f i ≤ avg then some (i, f i) else none

lemma lowItems_cons (avg : ℕ) (f : ℕ → ℕ) (i : ℕ) (l : List ℕ) :
    lowItems avg f (i :: l) = (if f i ≤ avg then [(i, f i)] else []) ++ lowItems avg f l := by
  by_cases h : f i ≤ avg <;> simp [lowItems, h]

lemma fst_mem_of_mem_lowItems {avg : ℕ} {f : ℕ → ℕ} {l : List ℕ} {item : ℕ × ℕ}
    (h : item ∈ lowItems avg f l) : item.1 ∈ l := by
  obtain ⟨i, hi, hitem⟩ := List.mem_filterMap.mp h
  obtain ⟨-, hitem⟩ := Option.ite_none_right_eq_some.mp hitem
  exact Option.some.inj hitem ▸ hi

/-- One iteration of the stealing loop, the same for a donor and for a low-load executor. -/
lemma stealLoop_cons (blocking : ℕ → Bool) (i : ℕ) (l : List ℕ) (d : DispatchState)
    (t : Executors) :
    stealLoop blocking (i :: l) (d, t) =
      stealLoop blocking l
        ({ d with
            minLoad := if d.minLoad > load t i then load t i else d.minLoad
            minLoadIdx := if d.minLoad > load t i then i else d.minLoadIdx
            stolen := d.stolen ++ given d.avgLoad (blocking i) (t i).runnableQueue
            lowLoad := d.lowLoad ++ if load t i ≤ d.avgLoad then [(i, load t i)] else [] },
          Function.update t i { t i with
            runnableQueue := kept d.avgLoad (blocking i) (t i).runnableQueue }) := by
  simp only [stealLoop, noteMin_eq, gt_iff_lt]
  by_cases hdonor : d.avgLoad < load t i
  · rw [if_pos hdonor, if_neg (not_le.mpr hdonor), List.append_nil]
    congr 1
    exact stealFrom_of_lt (d := { d with
      minLoad := if load t i < d.minLoad then load t i else d.minLoad
      minLoadIdx := if load t i < d.minLoad then i else d.minLoadIdx }) (blocking i) hdonor
  · have hlow : load t i ≤ d.avgLoad := not_lt.mp hdonor
    rw [if_neg hdonor, if_pos hlow, given_of_le hlow, kept_of_le hlow, List.append_nil]
    simp only [noteLowLoad, Function.update_eq_self]

/-- The stealing loop over the `k` executors from `i` on, whose runnable queues are `q`. -/
lemma stealLoop_eq (blocking : ℕ → Bool) (q : ℕ → List CoTaskPtr) (k i : ℕ) (d : DispatchState)
    (t : Executors) (hq : ∀ j, i ≤ j → (t j).runnableQueue = q j)
    (hleast : FirstLeast (fun j => (q j).length) (max i 1) d.minLoadIdx)
    (hmin : d.minLoad = (q d.minLoadIdx).length) :
    ∃ m, FirstLeast (fun j => (q j).length) (max (i + k) 1) m ∧
      stealLoop blocking (List.range' i k) (d, t) =
        ({ d with
            minLoad := (q m).length
            minLoadIdx := m
            stolen := d.stolen ++
              (List.range' i k).flatMap fun j => given d.avgLoad (blocking j) (q j)
            lowLoad := d.lowLoad ++
              lowItems d.avgLoad (fun j => (q j).length) (List.range' i k) },
          setQueues i k (fun j => kept d.avgLoad (blocking j) (q j)) t) := by
  induction k generalizing i d t with
  | zero =>
    refine ⟨d.minLoadIdx, hleast, ?_⟩
    simp [stealLoop, lowItems, ← hmin]
  | succ k ih =>
    have hload : load t i = (q i).length := congrArg List.length (hq i le_rfl)
    have hscan := hleast.scan
    rw [← Nat.max_eq_left (show 1 ≤ i + 1 by omega)] at hscan
    rw [List.range'_succ, stealLoop_cons, hload, hq i le_rfl, hmin]
    obtain ⟨m, hm, heq⟩ := ih (i + 1)
      { d with
        minLoad := if (q d.minLoadIdx).length > (q i).length then (q i).length
          else (q d.minLoadIdx).length
        minLoadIdx := if (q d.minLoadIdx).length > (q i).length then i else d.minLoadIdx
        stolen := d.stolen ++ given d.avgLoad (blocking i) (q i)
        lowLoad := d.lowLoad ++ if (q i).length ≤ d.avgLoad then [(i, (q i).length)] else [] }
      (Function.update t i { t i with runnableQueue := kept d.avgLoad (blocking i) (q i) })
      (fun j hj => by rw [Function.update_of_ne (by omega)]; exact hq j (by omega)) hscan
      (by dsimp only; split <;> rfl)
    refine ⟨m, by rwa [show i + (k + 1) = i + 1 + k by omega], ?_⟩
    rw [heq, setQueues_succ, lowItems_cons, List.flatMap_cons, List.append_assoc,
      List.append_assoc]

/-! ## The hand-out loop -/

/-- What the requests before `i` have used of the stolen tasks. -/
abbrev used (d : DispatchState) (f : ℕ → ℕ) (i : ℕ) : ℕ :=
  min (lack f d.avgLoad i) d.stolen.length

/-- The pushes to the executors in `l`. -/
def pushes (supply : List CoTaskPtr) (request : ℕ → ℕ) (l : List ℕ) : List (ℕ × CoTaskPtr) :=
  l.flatMap fun j => (share supply request j).map fun tk => (j, tk)

lemma supplyEnd_eq {d : DispatchState} {f : ℕ → ℕ} {i : ℕ} (hlow : f i ≤ d.avgLoad)
    (hfirst : d.first = used d f i) : d.supplyEnd (f i) = used d f (i + 1) := by
  rw [supplyEnd, wrapSub_of_le hlow, hfirst, used, used, lack, lack, asked_succ]
  omega

/-- A donation from where `i`'s turn comes is the share of `i`. -/
lemma handTo_share {d : DispatchState} {f : ℕ → ℕ} {i : ℕ} (t : Executors)
    (hfirst : d.first = used d f i) :
    d.handTo i (used d f (i + 1)) t =
      ({ d with
          first := used d f (i + 1)
          handed := d.handed ++ pushes d.stolen (fun j => d.avgLoad - f j) [i] },
        Function.update t i { t i with
          runnableQueue :=
            (t i).runnableQueue ++ share d.stolen (fun j => d.avgLoad - f j) i }) := by
  have hbatch : (d.stolen.drop d.first).take (used d f (i + 1) - d.first) =
      share d.stolen (fun j => d.avgLoad - f j) i := by
    have hnext : lack f d.avgLoad (i + 1) = lack f d.avgLoad i + (d.avgLoad - f i) :=
      asked_succ _ i
    rw [share, hfirst]
    by_cases hin : lack f d.avgLoad i ≤ d.stolen.length
    · rw [used, used, Nat.min_eq_left hin, hnext, List.take_eq_take_iff, List.length_drop]
      omega
    · have hout : d.stolen.length ≤ lack f d.avgLoad i := le_of_not_ge hin
      have hused : used d f i = d.stolen.length := Nat.min_eq_right hout
      rw [hused, List.drop_length, List.drop_of_length_le hout, List.take_nil, List.take_nil]
  simp [handTo, hbatch, pushes]

/-- With the stolen tasks used up there is nothing to hand out: the `break` of the loop saves
work and changes nothing else. -/
lemma handOutLoop_done (items : List (ℕ × ℕ)) {d : DispatchState} (t : Executors)
    (hdone : d.first = d.stolen.length) : handOutLoop items (d, t) = (d, t) := by
  induction items with
  | nil => rfl
  | cons item items ih =>
    obtain ⟨idx, load⟩ := item
    have hend : d.supplyEnd load = d.stolen.length := by
      rw [supplyEnd, hdone]
      omega
    have hhand : d.handTo idx (d.supplyEnd load) t = (d, t) := by
      simp [handTo, hend, ← hdone]
    simp only [handOutLoop]
    split
    next => exact ih
    next => rw [hhand, if_pos hdone.ge]

/-- One iteration of the hand-out loop, the same whether or not `i` is due anything. -/
lemma handOutLoop_cons (f : ℕ → ℕ) (i : ℕ) (l : List ℕ) {d : DispatchState} (t : Executors)
    (hfirst : d.first = used d f i) :
    handOutLoop (lowItems d.avgLoad f (i :: l)) (d, t) =
      handOutLoop (lowItems d.avgLoad f l)
        ({ d with
            first := used d f (i + 1)
            handed := d.handed ++ pushes d.stolen (fun j => d.avgLoad - f j) [i] },
          Function.update t i { t i with
            runnableQueue :=
              (t i).runnableQueue ++ share d.stolen (fun j => d.avgLoad - f j) i }) := by
  rw [lowItems_cons]
  by_cases hdue : d.avgLoad - f i = 0
  · have hshare : share d.stolen (fun j => d.avgLoad - f j) i = [] := share_of_eq_zero hdue
    have hused : used d f (i + 1) = d.first := by
      rw [hfirst, used, used, lack, lack, asked_succ, hdue, Nat.add_zero]
    have hskip : handOutLoop ((if f i ≤ d.avgLoad then [(i, f i)] else []) ++
        lowItems d.avgLoad f l) (d, t) = handOutLoop (lowItems d.avgLoad f l) (d, t) := by
      split
      next hlow => simp [handOutLoop, wrapSub_of_le hlow, hdue]
      next => rfl
    rw [hskip, hused]
    simp [pushes, hshare]
  · have hlow : f i ≤ d.avgLoad := by omega
    have hsupply : wrapSub d.avgLoad (f i) ≠ 0 := by rwa [wrapSub_of_le hlow]
    rw [if_pos hlow]
    simp only [List.cons_append, List.nil_append, handOutLoop, if_neg hsupply,
      supplyEnd_eq hlow hfirst, handTo_share t hfirst]
    split
    next hdone =>
      rw [handOutLoop_done]
      exact le_antisymm (min_le_right _ _) hdone
    next => rfl

/-- The hand-out loop over the low-load executors among the `k` from `i` on. -/
lemma handOutLoop_eq (f : ℕ → ℕ) (k i : ℕ) (d : DispatchState) (t : Executors)
    (hfirst : d.first = used d f i) :
    handOutLoop (lowItems d.avgLoad f (List.range' i k)) (d, t) =
      ({ d with
          first := used d f (i + k)
          handed := d.handed ++ pushes d.stolen (fun j => d.avgLoad - f j) (List.range' i k) },
        setQueues i k (fun j =>
          (t j).runnableQueue ++ share d.stolen (fun j => d.avgLoad - f j) j) t) := by
  induction k generalizing i d t with
  | zero => simp [handOutLoop, lowItems, pushes, ← hfirst]
  | succ k ih =>
    rw [List.range'_succ, handOutLoop_cons f i _ t hfirst]
    have hrest := ih (i + 1)
      { d with
        first := used d f (i + 1)
        handed := d.handed ++ pushes d.stolen (fun j => d.avgLoad - f j) [i] }
      (Function.update t i { t i with
        runnableQueue := (t i).runnableQueue ++ share d.stolen (fun j => d.avgLoad - f j) i }) rfl
    refine hrest.trans ?_
    rw [setQueues_succ, show i + (k + 1) = i + 1 + k by omega]
    congr 1
    · simp [pushes, used]
    · refine setQueues_congr _ fun j hj => ?_
      rw [Function.update_of_ne (by omega)]

/-- What is left over goes to the executor that was least loaded. -/
lemma handOutRest_eq {f : ℕ → ℕ} {n : ℕ} {d : DispatchState} (t : Executors)
    (hfirst : d.first = used d f n) :
    (handOutRest (d, t)).2 = Function.update t d.minLoadIdx { t d.minLoadIdx with
      runnableQueue :=
        (t d.minLoadIdx).runnableQueue ++ leftover d.stolen (fun j => d.avgLoad - f j) n } := by
  have hrest : d.stolen.drop d.first = leftover d.stolen (fun j => d.avgLoad - f j) n := by
    rw [leftover, hfirst, used]
    by_cases hin : lack f d.avgLoad n ≤ d.stolen.length
    · rw [Nat.min_eq_left hin]
    · have hout : d.stolen.length ≤ lack f d.avgLoad n := le_of_not_ge hin
      rw [Nat.min_eq_right hout, List.drop_length, List.drop_of_length_le hout]
  simp only [handOutRest]
  split
  next => simp [handTo, List.take_of_length_le, ← hrest]
  next hdone =>
    rw [← hrest, List.drop_of_length_le (not_lt.mp hdone), List.append_nil,
      Function.update_eq_self]

/-- Both phases of the hand-out together, from a pass that has handed out nothing. -/
lemma handOut_eq {f : ℕ → ℕ} {n : ℕ} {d : DispatchState} (t : Executors) (hfirst : d.first = 0)
    (hlow : d.lowLoad = lowItems d.avgLoad f (List.range n)) :
    let p := handOutRest (handOutLoop d.lowLoad (d, t))
    let t' := setQueues 0 n
      (fun j => (t j).runnableQueue ++ share d.stolen (fun j => d.avgLoad - f j) j) t
    p.1.stolen = d.stolen ∧
      p.2 = Function.update t' d.minLoadIdx { t' d.minLoadIdx with
        runnableQueue := (t' d.minLoadIdx).runnableQueue ++
          leftover d.stolen (fun j => d.avgLoad - f j) n } := by
  have hused : d.first = used d f 0 := by
    rw [hfirst, used, lack, asked_zero, Nat.zero_min]
  rw [hlow, List.range_eq_range', handOutLoop_eq f n 0 d t hused]
  dsimp only
  refine ⟨?_, handOutRest_eq _ (by rw [Nat.zero_add])⟩
  unfold handOutRest
  split <;> rfl

end DispatchState

/-! ## The whole pass -/

/-- `avg_load` as the pass computes it. -/
lemma avgLoad_eq (n : ℕ) (t : Executors) :
    (((List.range n).map fun i => (t i).getRunnableCount).sum +
      ((List.range n).map fun i => (t i).getWaitingCount).sum) / n = avgLoad n t := rfl

/-- Where nothing is stolen nothing is handed out. -/
lemma queueAfter_of_stolen_eq_nil {n : ℕ} {blocking : ℕ → Bool} {t : Executors}
    (h : stolenTasks n blocking t = []) (k i : ℕ) :
    queueAfter n blocking t k i = kept (avgLoad n t) (blocking i) (t i).runnableQueue := by
  simp [queueAfter, h, share, leftover]

/-- After both loops and the hand-out of the rest, every executor has its final queue. -/
lemma update_setQueues {n k : ℕ} (hk : k < n) (q q' : ℕ → List CoTaskPtr) (rest : List CoTaskPtr)
    (t t' : Executors) (ht' : t' = setQueues 0 n q t) :
    let t'' := setQueues 0 n (fun j => (t' j).runnableQueue ++ q' j) t'
    Function.update t'' k { t'' k with runnableQueue := (t'' k).runnableQueue ++ rest } =
      setQueues 0 n (fun i => q i ++ q' i ++ if i = k then rest else []) t := by
  subst ht'
  funext j
  by_cases hj : j < n
  · have hmem : 0 ≤ j ∧ j < 0 + n := by omega
    by_cases hjk : j = k
    · subst hjk
      simp [setQueues_of_mem hmem]
    · simp [setQueues_of_mem hmem, hjk]
  · have hjk : j ≠ k := by omega
    simp [setQueues_of_notMem (show ¬ (0 ≤ j ∧ j < 0 + n) by omega), hjk]

/-- What the stealing loop leaves to the hand-out. -/
structure Collected (n : ℕ) (blocking : ℕ → Bool) (t : Executors) (k : ℕ)
    (p : DispatchState × Executors) : Prop where
  least : FirstLeast (load t) n k
  avgLoad_eq : p.1.avgLoad = avgLoad n t
  stolen_eq : p.1.stolen = stolenTasks n blocking t
  lowLoad_eq : p.1.lowLoad = DispatchState.lowItems (avgLoad n t) (load t) (List.range n)
  minLoadIdx_eq : p.1.minLoadIdx = k
  first_eq : p.1.first = 0
  table_eq : p.2 =
    setQueues 0 n (fun i => kept (avgLoad n t) (blocking i) (t i).runnableQueue) t

lemma stealLoop_collected {n : ℕ} (hn : 0 < n) (blocking : ℕ → Bool) (t : Executors) (r w : ℕ) :
    ∃ k, Collected n blocking t k (stealLoop blocking (List.range n)
      ({ executorCount := n, totalRunnables := r, totalWaitings := w
         avgLoad := avgLoad n t, minLoad := (t 0).getRunnableCount }, t)) := by
  obtain ⟨k, hk, heq⟩ := DispatchState.stealLoop_eq blocking (fun j => (t j).runnableQueue) n 0
    { executorCount := n, totalRunnables := r, totalWaitings := w
      avgLoad := avgLoad n t, minLoad := (t 0).getRunnableCount } t (fun _ _ => rfl) (.one _) rfl
  rw [show max (0 + n) 1 = n by omega] at hk
  rw [← List.range_eq_range'] at heq
  exact ⟨k, by rw [heq]; exact ⟨hk, rfl, rfl, rfl, rfl, rfl, rfl⟩⟩

/-- Where there is no load at all, every runnable queue is empty. -/
lemma load_eq_zero {n : ℕ} {t : Executors}
    (h : ((List.range n).map fun i => (t i).getRunnableCount).sum +
      ((List.range n).map fun i => (t i).getWaitingCount).sum = 0) : ∀ i < n, load t i = 0 := by
  intro i hi
  have hsum : ∑ j ∈ range n, load t j = 0 := (Nat.add_eq_zero_iff.mp h).1
  exact (sum_eq_zero_iff.mp hsum) i (mem_range.mpr hi)

/-- Nobody above the average has to give anything. -/
lemma stolenTasks_eq_nil {n : ℕ} {blocking : ℕ → Bool} {t : Executors}
    (h : ∀ i < n, load t i ≤ avgLoad n t) : stolenTasks n blocking t = [] :=
  List.flatMap_eq_nil_iff.mpr fun i hi => given_of_le (h i (List.mem_range.mp hi)) _

/-- **The outcome of a pass**: what is stolen, and the runnable queue of every executor. -/
lemma dispatchTasksEqually_eq {n : ℕ} (hn : 0 < n) (blocking : ℕ → Bool) (t : Executors) :
    ∃ k, FirstLeast (load t) n k ∧
      (dispatchTasksEqually n blocking t).1.stolen = stolenTasks n blocking t ∧
      (dispatchTasksEqually n blocking t).2 = setQueues 0 n (queueAfter n blocking t k) t := by
  simp only [dispatchTasksEqually]
  rw [avgLoad_eq]
  split
  next hzero =>
    have hload := load_eq_zero hzero
    have hle : ∀ i < n, load t i ≤ avgLoad n t := fun i hi =>
      (hload i hi).trans_le (Nat.zero_le _)
    have hstolen : stolenTasks n blocking t = [] := stolenTasks_eq_nil hle
    refine ⟨0, ⟨hn, fun j _ => (hload 0 hn).trans_le (Nat.zero_le _),
      fun j hj => absurd hj j.not_lt_zero⟩, hstolen.symm, (setQueues_self fun j _ hj => ?_).symm⟩
    rw [queueAfter_of_stolen_eq_nil hstolen, kept_of_le (hle j (by omega))]
  next =>
    obtain ⟨k, hcol⟩ := stealLoop_collected hn blocking t
      ((List.range n).map fun i => (t i).getRunnableCount).sum
      ((List.range n).map fun i => (t i).getWaitingCount).sum
    generalize stealLoop blocking (List.range n) _ = p at hcol ⊢
    refine ⟨k, hcol.least, ?_⟩
    split
    next hnil =>
      rw [hcol.stolen_eq] at hnil
      refine ⟨hcol.stolen_eq, hcol.table_eq.trans (setQueues_congr t fun j _ => ?_)⟩
      rw [queueAfter_of_stolen_eq_nil hnil]
    next =>
      have hlow : p.1.lowLoad = DispatchState.lowItems p.1.avgLoad (load t) (List.range n) := by
        rw [hcol.lowLoad_eq, hcol.avgLoad_eq]
      obtain ⟨hs, ht⟩ := DispatchState.handOut_eq p.2 hcol.first_eq hlow
      refine ⟨hs.trans hcol.stolen_eq, ht.trans ?_⟩
      rw [hcol.minLoadIdx_eq, hcol.stolen_eq, hcol.avgLoad_eq]
      exact update_setQueues hcol.least.lt _ _ _ t p.2 hcol.table_eq

/-! ## What each executor ends with -/

section Queue

variable {n : ℕ} {blocking : ℕ → Bool} {t : Executors} {k i : ℕ}

/-- The least loaded executor is never a donor. -/
lemma load_le_avgLoad (hk : FirstLeast (load t) n k) : load t k ≤ avgLoad n t := hk.le_average _

/-- A donor gets nothing back: it asks for nothing, and it is not the least loaded one. -/
lemma queueAfter_of_lt (hk : load t k ≤ avgLoad n t) (hi : avgLoad n t < load t i) :
    queueAfter n blocking t k i = kept (avgLoad n t) (blocking i) (t i).runnableQueue := by
  have hdue : nSupply n t i = 0 := Nat.sub_eq_zero_of_le hi.le
  have hik : i ≠ k := by
    rintro rfl
    exact absurd hk (not_le.mpr hi)
  rw [queueAfter, share_of_eq_zero hdue, if_neg hik, List.append_nil, List.append_nil]

lemma queueAfter_of_le (hi : load t i ≤ avgLoad n t) :
    queueAfter n blocking t k i =
      (t i).runnableQueue ++ share (stolenTasks n blocking t) (nSupply n t) i ++
        if i = k then leftover (stolenTasks n blocking t) (nSupply n t) n else [] := by
  rw [queueAfter, kept_of_le hi]

/-- A low-load executor is filled up to the average and no further. -/
lemma load_add_share_le (hi : load t i ≤ avgLoad n t) :
    load t i + (share (stolenTasks n blocking t) (nSupply n t) i).length ≤ avgLoad n t := by
  rw [length_share, nSupply]
  omega

/-- Where something is left over, every low-load executor has been filled up. -/
lemma load_add_share_of_leftover
    (hleft : leftover (stolenTasks n blocking t) (nSupply n t) n ≠ []) (hin : i < n)
    (hi : load t i ≤ avgLoad n t) :
    load t i + (share (stolenTasks n blocking t) (nSupply n t) i).length = avgLoad n t := by
  rw [share_length_of_leftover hleft hin, nSupply]
  omega

/-- Only the executor that was least loaded can end above the average, and only if something was
left over. -/
lemma length_queueAfter_le (hk : load t k ≤ avgLoad n t)
    (h : i ≠ k ∨ leftover (stolenTasks n blocking t) (nSupply n t) n = []) :
    (queueAfter n blocking t k i).length ≤ avgLoad n t := by
  by_cases hi : load t i ≤ avgLoad n t
  · have hfill : load t i + (share (stolenTasks n blocking t) (nSupply n t) i).length ≤
        avgLoad n t := load_add_share_le hi
    have hrest : (if i = k then leftover (stolenTasks n blocking t) (nSupply n t) n else []) =
        [] := by
      split
      next hik => exact h.resolve_left (not_not.mpr hik)
      next => rfl
    rw [queueAfter_of_le hi, hrest, List.append_nil, List.length_append]
    exact hfill
  · rw [queueAfter_of_lt hk (not_le.mp hi), kept]
    split <;> simp

end Queue

/-- **The exact outcome of one undisturbed pass.**  With `avg` the average load, rounded down, and
`k` the first least loaded executor, which is never a donor:

* a donor keeps its first `avg` tasks, or none if it is blocking;
* every other executor keeps its queue and gets a block behind it; the blocks, in index order, and
  what is left over are together the stolen sequence, and what is left over goes to `k`;
* the blocks fill the executors up to `avg`, each only when those before it are full;
* only `k` can end above `avg`, and only with all low-load executors full; its surplus is what was
  stolen beyond the total demand;
* nothing else of an executor changes. -/
theorem dispatchTasksEqually_outcome {n : ℕ} (hn : 0 < n) (blocking : ℕ → Bool) (t : Executors) :
    let avg := avgLoad n t
    let stolen := stolenTasks n blocking t
    let block := share stolen (nSupply n t)
    let rest := leftover stolen (nSupply n t) n
    let t' := (dispatchTasksEqually n blocking t).2
    ∃ k, FirstLeast (load t) n k ∧ load t k ≤ avg ∧
      (∀ i < n, avg < load t i → blocking i = false →
        (t' i).runnableQueue = (t i).runnableQueue.take avg) ∧
      (∀ i < n, avg < load t i → blocking i = true → (t' i).runnableQueue = []) ∧
      (∀ i < n, load t i ≤ avg →
        (t' i).runnableQueue = (t i).runnableQueue ++ block i ++ if i = k then rest else []) ∧
      (dispatchTasksEqually n blocking t).1.stolen = stolen ∧
      (List.range n).flatMap block ++ rest = stolen ∧
      (∀ i < n, avg < load t i → block i = []) ∧
      (∀ i < n, load t i ≤ avg → load t i + (block i).length ≤ avg) ∧
      (∀ j < n, block j ≠ [] → ∀ i < j, load t i ≤ avg → load t i + (block i).length = avg) ∧
      (∀ i < n, avg < load t' i →
        i = k ∧ ∀ j < n, load t j ≤ avg → load t j + (block j).length = avg) ∧
      load t' k - avg = stolen.length - ∑ i ∈ range n, (avg - load t i) ∧
      (∀ i, t' i = { t i with runnableQueue := (t' i).runnableQueue }) ∧
      ∀ i, n ≤ i → t' i = t i := by
  obtain ⟨k, hk, hstolen, htable⟩ := dispatchTasksEqually_eq hn blocking t
  have hle := load_le_avgLoad hk
  have hin : ∀ i < n, ((dispatchTasksEqually n blocking t).2 i).runnableQueue =
      queueAfter n blocking t k i := by
    intro i hi
    rw [htable, setQueues_of_mem (by omega)]
  have hload : ∀ i < n, load (dispatchTasksEqually n blocking t).2 i =
      (queueAfter n blocking t k i).length := fun i hi => congrArg List.length (hin i hi)
  refine ⟨k, hk, hle, ?_, ?_, ?_, hstolen, flatMap_share _ _ _, ?_, ?_, ?_, ?_, ?_, ?_, ?_⟩
  · intro i hi hlt hb
    rw [hin i hi, queueAfter_of_lt hle hlt, kept, hb]
    simp
  · intro i hi hlt hb
    rw [hin i hi, queueAfter_of_lt hle hlt, kept, hb, if_pos ⟨hlt, rfl⟩]
  · intro i hi hlow
    rw [hin i hi, queueAfter_of_le hlow]
  · intro i _ hlt
    exact share_of_eq_zero (Nat.sub_eq_zero_of_le hlt.le)
  · intro i _ hlow
    exact load_add_share_le hlow
  · intro j _ hblock i hij hlow
    rw [share_length_of_lt hblock hij, nSupply]
    omega
  · intro i hi hlt
    rw [hload i hi] at hlt
    obtain ⟨hik, hleft⟩ := not_or.mp fun h => absurd (length_queueAfter_le hle h) (not_le.mpr hlt)
    exact ⟨not_not.mp hik, fun j hj hlow => load_add_share_of_leftover hleft hj hlow⟩
  · rw [hload k hk.lt]
    have hrest : (leftover (stolenTasks n blocking t) (nSupply n t) n).length =
        (stolenTasks n blocking t).length - ∑ i ∈ range n, (avgLoad n t - load t i) :=
      length_leftover _ _ _
    by_cases hleft : leftover (stolenTasks n blocking t) (nSupply n t) n = []
    · rw [← hrest, Nat.sub_eq_zero_of_le (length_queueAfter_le hle (.inr hleft)), hleft]
      rfl
    · have hfull := load_add_share_of_leftover hleft hk.lt hle
      have hlen : (t k).runnableQueue.length = load t k := rfl
      rw [← hrest, queueAfter_of_le hle, if_pos rfl, List.length_append, List.length_append, hlen,
        hfull, Nat.add_sub_cancel_left]
  · intro i
    rw [htable]
    unfold setQueues
    split <;> rfl
  · intro i hi
    rw [htable, setQueues_of_notMem (by omega)]

/-- The table with these runnable and waiting queues. -/
def tableOf (qs : List (List CoTaskPtr × List CoTaskPtr)) : Executors := fun i =>
  { runnableQueue := (qs.getD i ([], [])).1, waitingQueue := (qs.getD i ([], [])).2 }

/-- Three executors with five, no and two runnable tasks: the first keeps two of its five, the
second is filled up to two, and the one task left over goes to it as well. -/
theorem dispatchTasksEqually_outcome_three :
    let t := tableOf [([1, 2, 3, 4, 5], []), ([], []), ([6, 7], [])]
    0 < 3 ∧ ∃ k, FirstLeast (load t) 3 k ∧
      ((dispatchTasksEqually 3 (fun _ => false) t).2 0).runnableQueue = [1, 2] ∧
      load (dispatchTasksEqually 3 (fun _ => false) t).2 k - 2 = 1 := by
  intro t
  have havg : avgLoad 3 t = 2 := by decide
  obtain ⟨k, hk, -, hdonor, -, -, -, -, -, -, -, -, hsurplus, -⟩ :=
    dispatchTasksEqually_outcome (n := 3) (by decide) (fun _ => false) t
  rw [havg] at hdonor hsurplus
  exact ⟨by decide, k, hk, hdonor 0 (by decide) (by decide) rfl, hsurplus.trans (by decide)⟩

end CoroutineCpp
