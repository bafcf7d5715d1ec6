import Mathlib.Algebra.BigOperators.Intervals
import Mathlib.Algebra.Order.BigOperators.Group.Finset
import Mathlib.Data.Finset.Lattice.Fold
import Mathlib.Order.Lattice.Nat

/-!
# Greedy filling and levelling

A supply is handed out in order: request `i` asks for `d i` items and takes the next ones there
are.  Everything about the outcome is a matter of the prefix sums `asked d i`, what the requests
before `i` ask for.

* `share`, `leftover` — who gets what; together they are the supply again (`flatMap_share`).
* `share_eq_nil_iff`, `share_length_eq_iff` — who gets nothing, who gets all he asked for;
  whoever gets something has everyone before him served (`share_length_of_lt`).
* `FirstLeast` — the first index at which a function is least, and the scan that finds it.
* `spread` — the largest difference between two values.
* `levelled` — the numbers behind a levelling: what is above a level `a` is cut off and handed to
  those below it, the leftover going to one index.  `spread_levelled_le_iff` says exactly when
  that does not increase the spread.
-/

namespace Framework

open Finset

/-! ## Handing out a supply -/

section Fill

variable {β : Type*}

/-- What the requests before `i` ask for. -/
def asked (d : ℕ → ℕ) (i : ℕ) : ℕ := ∑ j ∈ range i, d j

/-- What request `i` gets. -/
def share (supply : List β) (d : ℕ → ℕ) (i : ℕ) : List β := (supply.drop (asked d i)).take (d i)

/-- What the first `n` requests leave. -/
def leftover (supply : List β) (d : ℕ → ℕ) (n : ℕ) : List β := supply.drop (asked d n)

variable {supply : List β} {d : ℕ → ℕ} {i j n : ℕ}

@[simp] lemma asked_zero (d : ℕ → ℕ) : asked d 0 = 0 := rfl

lemma asked_succ (d : ℕ → ℕ) (i : ℕ) : asked d (i + 1) = asked d i + d i := sum_range_succ d i

lemma asked_mono (d : ℕ → ℕ) : Monotone (asked d) := fun _ _ hij =>
  sum_le_sum_of_subset (range_subset_range.mpr hij)

lemma asked_succ_le (d : ℕ → ℕ) (hij : i < j) : asked d i + d i ≤ asked d j :=
  asked_succ d i ▸ asked_mono d hij

@[simp] lemma length_share (supply : List β) (d : ℕ → ℕ) (i : ℕ) :
    (share supply d i).length = min (d i) (supply.length - asked d i) := by
  simp [share]

@[simp] lemma length_leftover (supply : List β) (d : ℕ → ℕ) (n : ℕ) :
    (leftover supply d n).length = supply.length - asked d n := by
  simp [leftover]

@[simp] lemma leftover_zero (supply : List β) (d : ℕ → ℕ) : leftover supply d 0 = supply := rfl

/-- A request takes its share off the front of what is left. -/
lemma share_append_leftover (supply : List β) (d : ℕ → ℕ) (i : ℕ) :
    share supply d i ++ leftover supply d (i + 1) = leftover supply d i := by
  rw [share, leftover, asked_succ, ← List.drop_drop, List.take_append_drop, leftover]

/-- The shares, in the order of the requests, and the leftover are the supply. -/
lemma flatMap_share (supply : List β) (d : ℕ → ℕ) (n : ℕ) :
    (List.range n).flatMap (share supply d) ++ leftover supply d n = supply := by
  induction n with
  | zero => rfl
  | succ n ih =>
    rw [List.range_succ, List.flatMap_append, List.append_assoc]
    simpa [share_append_leftover] using ih

lemma share_eq_nil_iff : share supply d i = [] ↔ d i = 0 ∨ supply.length ≤ asked d i := by
  rw [← List.length_eq_zero_iff, length_share]
  omega

lemma leftover_eq_nil_iff : leftover supply d n = [] ↔ supply.length ≤ asked d n := by
  rw [← List.length_eq_zero_iff, length_leftover]
  omega

lemma share_of_eq_zero (h : d i = 0) : share supply d i = [] := share_eq_nil_iff.mpr (.inl h)

lemma share_length_eq_iff :
    (share supply d i).length = d i ↔ d i = 0 ∨ asked d (i + 1) ≤ supply.length := by
  rw [length_share, asked_succ]
  omega

/-- Whoever gets something has everyone before him served. -/
lemma share_length_of_lt (hj : share supply d j ≠ []) (hij : i < j) :
    (share supply d i).length = d i := by
  rw [ne_eq, share_eq_nil_iff] at hj
  have hasked := asked_succ_le d hij
  rw [share_length_eq_iff, asked_succ]
  omega

/-- Where something is left, everyone is served. -/
lemma share_length_of_leftover (hn : leftover supply d n ≠ []) (hi : i < n) :
    (share supply d i).length = d i := by
  rw [ne_eq, leftover_eq_nil_iff] at hn
  have hasked := asked_succ_le d hi
  rw [share_length_eq_iff, asked_succ]
  omega

/-- A supply of `s` items runs out strictly inside request `i`. -/
def RunsOutIn (d : ℕ → ℕ) (s i : ℕ) : Prop := asked d i < s ∧ s < asked d (i + 1)

lemma not_runsOutIn_of_eq_zero {s : ℕ} (h : d i = 0) : ¬ RunsOutIn d s i := by
  rw [RunsOutIn, asked_succ, h]
  omega

/-- Nothing runs out inside a request before which all is used up. -/
lemma not_runsOutIn_of_le {s : ℕ} (h : s ≤ asked d i) (hij : i ≤ j) : ¬ RunsOutIn d s j :=
  fun hout => absurd (hout.1.trans_le h) (not_lt.mpr (asked_mono d hij))

end Fill

/-! ## The first least index -/

/-- `k` is the first index below `n` at which `f` is least. -/
structure FirstLeast (f : ℕ → ℕ) (n k : ℕ) : Prop where
  lt : k < n
  le : ∀ j < n, f k ≤ f j
  first : ∀ j < k, f k < f j

namespace FirstLeast

variable {f : ℕ → ℕ} {n k l : ℕ}

lemma unique (hk : FirstLeast f n k) (hl : FirstLeast f n l) : k = l := by
  rcases Nat.lt_trichotomy k l with h | h | h
  · exact absurd (hl.first k h) (not_lt.mpr (hk.le l hl.lt))
  · exact h
  · exact absurd (hk.first l h) (not_lt.mpr (hl.le k hk.lt))

lemma one (f : ℕ → ℕ) : FirstLeast f 1 0 :=
  ⟨Nat.one_pos, fun j hj => by rw [Nat.lt_one_iff.mp hj], fun j hj => absurd hj j.not_lt_zero⟩

/-- A scan that replaces the index on a strictly smaller value finds the first least one. -/
lemma scan {i : ℕ} (h : FirstLeast f (max i 1) k) :
    FirstLeast f (i + 1) (if f k > f i then i else k) := by
  obtain ⟨hlt, hle, hfirst⟩ := h
  split
  next hsmaller =>
    refine ⟨by omega, fun j hj => ?_, fun j hj => ?_⟩
    · rcases Nat.lt_succ_iff_lt_or_eq.mp hj with hj | rfl
      · exact hsmaller.le.trans (hle j (by omega))
      · exact le_rfl
    · exact hsmaller.trans_le (hle j (by omega))
  next hge =>
    refine ⟨by omega, fun j hj => ?_, hfirst⟩
    rcases Nat.lt_succ_iff_lt_or_eq.mp hj with hj | rfl
    · exact hle j (by omega)
    · exact not_lt.mp hge

/-- The least value is at most the average, whatever is added to the total. -/
lemma le_average (h : FirstLeast f n k) (extra : ℕ) :
    f k ≤ ((∑ i ∈ range n, f i) + extra) / n := by
  have hsum : n * f k ≤ ∑ i ∈ range n, f i := by
    simpa [-nsmul_eq_mul] using
      card_nsmul_le_sum (range n) f (f k) fun i hi => h.le i (mem_range.mp hi)
  rw [Nat.le_div_iff_mul_le (Nat.zero_lt_of_lt h.lt), mul_comm]
  omega

end FirstLeast

/-! ## The spread -/

/-- The largest difference between two of the first `n` values. -/
def spread (n : ℕ) (f : ℕ → ℕ) : ℕ := (range n).sup fun i => (range n).sup fun j => f i - f j

section Spread

variable {n : ℕ} {f g : ℕ → ℕ}

lemma spread_le_iff {m : ℕ} : spread n f ≤ m ↔ ∀ i < n, ∀ j < n, f i ≤ f j + m := by
  simp only [spread, Finset.sup_le_iff, mem_range, Nat.sub_le_iff_le_add, add_comm m]

lemma le_add_spread {i j : ℕ} (hi : i < n) (hj : j < n) : f i ≤ f j + spread n f :=
  spread_le_iff.mp le_rfl i hi j hj

lemma spread_congr (h : ∀ i < n, g i = f i) : spread n g = spread n f :=
  sup_congr rfl fun i hi => sup_congr rfl fun j hj => by
    rw [h i (mem_range.mp hi), h j (mem_range.mp hj)]

end Spread

/-! ## Levelling -/

/-- What is above the level `a` at the first `n` indices. -/
def excess (n : ℕ) (f : ℕ → ℕ) (a : ℕ) : ℕ := ∑ i ∈ range n, (f i - a)

/-- What is missing up to the level `a` before index `i`. -/
abbrev lack (f : ℕ → ℕ) (a i : ℕ) : ℕ := asked (fun j => a - f j) i

/-- The excess over `a` is cut off and handed to the indices below it, in order; `k` gets what is
left over. -/
def levelled (n : ℕ) (f : ℕ → ℕ) (a k i : ℕ) : ℕ :=
  min (f i) a + min (a - f i) (excess n f a - lack f a i) +
    if i = k then excess n f a - lack f a n else 0

section Levelling

variable {n a k : ℕ} {f : ℕ → ℕ}

/-- The books of a levelling. -/
lemma sum_add_lack (n : ℕ) (f : ℕ → ℕ) (a : ℕ) :
    (∑ i ∈ range n, f i) + lack f a n = n * a + excess n f a := by
  have hpoint : ∑ i ∈ range n, (f i + (a - f i)) = ∑ i ∈ range n, (a + (f i - a)) :=
    sum_congr rfl fun i _ => by omega
  rw [sum_add_distrib, sum_add_distrib] at hpoint
  simpa [lack, asked, excess, -nsmul_eq_mul] using hpoint

/-- What is handed out is the supply, or all that was asked for. -/
lemma sum_min_asked (d : ℕ → ℕ) (supply n : ℕ) :
    ∑ i ∈ range n, min (d i) (supply - asked d i) = min supply (asked d n) := by
  induction n with
  | zero => simp
  | succ n ih =>
    rw [sum_range_succ, ih, asked_succ]
    omega

/-- A levelling keeps the total. -/
lemma sum_levelled (hk : k < n) : ∑ i ∈ range n, levelled n f a k i = ∑ i ∈ range n, f i := by
  have hkept : (∑ i ∈ range n, min (f i) a) + excess n f a = ∑ i ∈ range n, f i := by
    rw [excess, ← sum_add_distrib]
    exact sum_congr rfl fun i _ => by omega
  have hrest : (∑ i ∈ range n, if i = k then excess n f a - lack f a n else 0) =
      excess n f a - lack f a n := by
    rw [sum_ite_eq' (range n) k, if_pos (mem_range.mpr hk)]
  have hgiven : ∑ i ∈ range n, min (a - f i) (excess n f a - lack f a i) =
      min (excess n f a) (lack f a n) := sum_min_asked _ _ n
  simp only [levelled, sum_add_distrib, hrest, hgiven]
  omega

/-- Nothing is left over exactly when the total does not exceed `n` times the level. -/
lemma excess_le_lack_iff : excess n f a ≤ lack f a n ↔ ∑ i ∈ range n, f i ≤ n * a := by
  have hsum := sum_add_lack n f a
  omega

/-- With something left over, everyone else ends at the level. -/
lemma levelled_of_lt (h : lack f a n < excess n f a) {i : ℕ} (hi : i < n) :
    levelled n f a k i = a + if i = k then excess n f a - lack f a n else 0 := by
  have hlack : lack f a i + (a - f i) ≤ lack f a n := asked_succ_le _ hi
  have hfill : min (f i) a + min (a - f i) (excess n f a - lack f a i) = a := by omega
  rw [levelled, hfill]

/-- With nothing left over, nobody ends above the level. -/
lemma levelled_le (h : excess n f a ≤ lack f a n) (i : ℕ) : levelled n f a k i ≤ a := by
  simp only [levelled, Nat.sub_eq_zero_of_le h, ite_self]
  omega

/-- Nobody ends below the smaller of what he had and the level. -/
lemma min_le_levelled (i : ℕ) : min (f i) a ≤ levelled n f a k i := by
  rw [levelled, add_assoc]
  exact Nat.le_add_right _ _

/-- Where nobody is above the level, nothing changes. -/
lemma levelled_of_excess_eq_zero (h : excess n f a = 0) {i : ℕ} (hi : i < n) :
    levelled n f a k i = f i := by
  have hle : f i - a = 0 := (sum_eq_zero_iff.mp h) i (mem_range.mpr hi)
  simp only [levelled, h, Nat.zero_sub, Nat.min_zero, ite_self]
  omega

/-- An excess is somebody's. -/
lemma exists_lt_of_excess (h : excess n f a ≠ 0) : ∃ i < n, a < f i := by
  obtain ⟨i, hi, hne⟩ := exists_ne_zero_of_sum_ne_zero h
  exact ⟨i, mem_range.mp hi, by omega⟩

/-- What is left over came from an index other than the one that gets it. -/
lemma exists_ne_of_lt (hk : k < n) (hak : f k ≤ a) (h : lack f a n < excess n f a) :
    ∃ j < n, j ≠ k := by
  obtain ⟨i, hi, hlt⟩ := exists_lt_of_excess (n := n) (f := f) (a := a) (by omega)
  exact ⟨i, hi, by rintro rfl; omega⟩

/-- **When a levelling does not increase the spread**: exactly when what is left over is at most
the spread there was. -/
theorem spread_levelled_le_iff (hk : k < n) (hak : f k ≤ a) :
    spread n (levelled n f a k) ≤ spread n f ↔ ∑ i ∈ range n, f i ≤ n * a + spread n f := by
  have hsum := sum_add_lack n f a
  by_cases hleft : lack f a n < excess n f a
  · obtain ⟨j, hj, hjk⟩ := exists_ne_of_lt hk hak hleft
    rw [spread_le_iff]
    constructor
    · intro h
      have hkj := h k hk j hj
      rw [levelled_of_lt hleft hk, levelled_of_lt hleft hj, if_pos rfl, if_neg hjk] at hkj
      omega
    · intro h i hi j hj
      rw [levelled_of_lt hleft hi, levelled_of_lt hleft hj]
      split <;> omega
  · rw [not_lt] at hleft
    refine iff_of_true ?_ (by omega)
    by_cases hzero : excess n f a = 0
    · exact (spread_congr fun i hi => levelled_of_excess_eq_zero hzero hi).le
    · obtain ⟨m, hm, hlt⟩ := exists_lt_of_excess hzero
      rw [spread_le_iff]
      intro i _ j hj
      have hi := levelled_le (k := k) hleft i
      have hmin := min_le_levelled (n := n) (f := f) (a := a) (k := k) j
      have hm := le_add_spread (f := f) hm hj
      omega

end Levelling

end Framework
