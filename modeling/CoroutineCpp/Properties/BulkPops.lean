import CoroutineCpp.Model.Containers

/-!
# The bulk pops of `ThreadSafeDeque`

Any sequence of `PopFrontAndAppend` and `PopBackAndAppend` takes a deque apart from its two ends:
what the front pops moved, in call order, then what is left, then what the back pops moved, in
reverse call order (`runPops_split`, by induction on the calls).  The blocks are read off the deque
`out` the calls append to.
-/

namespace CoroutineCpp

namespace ThreadSafeDeque

variable {T : Type*}

/-- A call of one of the two appending pops. -/
inductive BulkPop
  /-- `PopFrontAndAppend(n, out)` -/
  | front (n : ℕ)
  /-- `PopBackAndAppend(n, out)` -/
  | back (n : ℕ)
  deriving DecidableEq, Repr

namespace BulkPop

/-- The argument `n`. -/
def count : BulkPop → ℕ
  | front n => n
  | back n => n

/-- The call. -/
def run : BulkPop → ThreadSafeDeque T → ThreadSafeDeque T → ThreadSafeDeque T × ThreadSafeDeque T
  | front n => popFrontAndAppend n
  | back n => popBackAndAppend n

/-- The block, put back at the end it was taken from. -/
def rejoin : BulkPop → List T → ThreadSafeDeque T → ThreadSafeDeque T
  | front _, block, rest => block ++ rest
  | back _, block, rest => rest ++ block

end BulkPop

/-- What a call moved: the elements it appended to `out`, and the size of the deque before it. -/
structure Moved (T : Type*) where
  call : BulkPop
  size : ℕ
  block : List T
  deriving DecidableEq

/-- The deque, `out` and the moved blocks after a sequence of calls. -/
structure PopRun (T : Type*) where
  rest : ThreadSafeDeque T
  out : ThreadSafeDeque T
  moved : List (Moved T)
  deriving DecidableEq

/-- A sequence of calls. -/
def runPops : List BulkPop → ThreadSafeDeque T → ThreadSafeDeque T → PopRun T
  | [], d, out => { rest := d, out := out, moved := [] }
  | call :: calls, d, out =>
    let r := call.run d out
    let r' := runPops calls r.1 r.2
    { r' with
      moved := { call := call, size := d.length, block := r.2.drop out.length } :: r'.moved }

/-- The blocks of the front pops, in call order. -/
def fronts : List (Moved T) → List T
  | [] => []
  | m :: ms =>
    match m.call with
    | .front _ => m.block ++ fronts ms
    | .back _ => fronts ms

/-- The blocks of the back pops, in reverse call order. -/
def backs : List (Moved T) → List T
  | [] => []
  | m :: ms =>
    match m.call with
    | .front _ => backs ms
    | .back _ => backs ms ++ m.block

/-- What one call does: it cuts a block of `min n size` elements off its end of the deque and
appends it to `out`. -/
lemma BulkPop.run_split (call : BulkPop) (d out : ThreadSafeDeque T) :
    ∃ block rest, call.run d out = (rest, out ++ block) ∧
      block.length = min call.count d.length ∧ d = call.rejoin block rest := by
  cases call with
  | front n =>
    obtain ⟨block, hsplit, hout, hlen⟩ := popFrontAndAppend_split n d out
    exact ⟨block, _, Prod.ext rfl hout, hlen, hsplit⟩
  | back n =>
    obtain ⟨block, hsplit, hout, hlen⟩ := popBackAndAppend_split n d out
    exact ⟨block, _, Prod.ext rfl hout, hlen, hsplit⟩

/-- A sequence that begins with a call goes on where that call left the two deques. -/
lemma runPops_cons (call : BulkPop) (calls : List BulkPop) (d out : ThreadSafeDeque T) :
    ∃ block rest, block.length = min call.count d.length ∧ d = call.rejoin block rest ∧
      runPops (call :: calls) d out =
        { runPops calls rest (out ++ block) with
          moved := { call := call, size := d.length, block := block } ::
            (runPops calls rest (out ++ block)).moved } := by
  obtain ⟨block, rest, hrun, hlen, hd⟩ := call.run_split d out
  refine ⟨block, rest, hlen, hd, ?_⟩
  simp only [runPops, hrun, List.drop_left]

/-- The two ends that were taken off and what is left are the deque. -/
lemma runPops_ends (calls : List BulkPop) (d out : ThreadSafeDeque T) :
    fronts (runPops calls d out).moved ++ (runPops calls d out).rest ++
      backs (runPops calls d out).moved = d := by
  induction calls generalizing d out with
  | nil => simp [runPops, fronts, backs]
  | cons call calls ih =>
    obtain ⟨block, rest, -, hd, hrun⟩ := runPops_cons call calls d out
    have hrest := ih rest (out ++ block)
    rw [hrun, hd]
    cases call with
    | front n =>
      -- the block stands in front of everything that is taken later
      simp only [fronts, backs, BulkPop.rejoin, List.append_assoc]
      rw [← List.append_assoc (fronts _), hrest]
    | back n =>
      simp only [fronts, backs, BulkPop.rejoin]
      rw [← List.append_assoc, hrest]

/-- The blocks arrive in `out` in call order. -/
lemma runPops_out (calls : List BulkPop) (d out : ThreadSafeDeque T) :
    (runPops calls d out).out = out ++ ((runPops calls d out).moved.map Moved.block).flatten := by
  induction calls generalizing d out with
  | nil => simp [runPops]
  | cons call calls ih =>
    obtain ⟨block, rest, -, -, hrun⟩ := runPops_cons call calls d out
    rw [hrun]
    simp only [ih rest (out ++ block), List.map_cons, List.flatten_cons, List.append_assoc]

/-- Each call moves as many elements as it is asked for, or all there are. -/
lemma runPops_sizes (calls : List BulkPop) (d out : ThreadSafeDeque T) :
    (runPops calls d out).moved.map Moved.call = calls ∧
      ∀ m ∈ (runPops calls d out).moved, m.block.length = min m.call.count m.size := by
  induction calls generalizing d out with
  | nil => simp [runPops]
  | cons call calls ih =>
    obtain ⟨block, rest, hlen, -, hrun⟩ := runPops_cons call calls d out
    obtain ⟨hcalls, hsizes⟩ := ih rest (out ++ block)
    rw [hrun]
    refine ⟨congrArg (call :: ·) hcalls, ?_⟩
    rw [List.forall_mem_cons]
    exact ⟨hlen, hsizes⟩

/-- **Bulk pops split a deque without loss.**  After any sequence of appending pops the deque was
what the front pops moved, what is left, and what the back pops moved; `out` has gained all blocks
in call order; and each call moved `min n size` elements.  The replacing pops move the same block,
and leave that block alone in `out`. -/
theorem runPops_split (calls : List BulkPop) (d out : ThreadSafeDeque T) :
    d = fronts (runPops calls d out).moved ++ (runPops calls d out).rest ++
        backs (runPops calls d out).moved ∧
      (runPops calls d out).out = out ++ ((runPops calls d out).moved.map Moved.block).flatten ∧
      (runPops calls d out).moved.map Moved.call = calls ∧
      (∀ m ∈ (runPops calls d out).moved, m.block.length = min m.call.count m.size) ∧
      ∀ n : ℕ, ∀ d out : ThreadSafeDeque T,
        (∃ block, (popFrontAndAppend n d out).2 = out ++ block ∧
          popFrontAndReplace n d out = ((popFrontAndAppend n d out).1, block)) ∧
        ∃ block, (popBackAndAppend n d out).2 = out ++ block ∧
          popBackAndReplace n d out = ((popBackAndAppend n d out).1, block) := by
  obtain ⟨hcalls, hsizes⟩ := runPops_sizes calls d out
  exact ⟨(runPops_ends calls d out).symm, runPops_out calls d out, hcalls, hsizes,
    fun n d out => ⟨⟨_, rfl, rfl⟩, _, rfl, rfl⟩⟩

/-- Ten elements, two off the back and three off the front, then more than are left. -/
example :
    runPops [.back 2, .front 3, .back 9] [1, 2, 3, 4, 5, 6, 7, 8, 9, 10] ([] : List ℕ) =
      { rest := []
        out := [9, 10, 1, 2, 3, 4, 5, 6, 7, 8]
        moved := [⟨.back 2, 10, [9, 10]⟩, ⟨.front 3, 8, [1, 2, 3]⟩,
          ⟨.back 9, 5, [4, 5, 6, 7, 8]⟩] } := by
  decide

end ThreadSafeDeque

end CoroutineCpp
