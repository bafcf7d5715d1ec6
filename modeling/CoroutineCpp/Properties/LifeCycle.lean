import CoroutineCpp.Model.CoroutineBody

/-!
# The life cycle of a coroutine

What a coroutine is after `k` calls of `Resume`, for every body and every `k`.  One visit of the CPU
runs one segment (`execute`), and from then on each `Resume` finds either a context that `GiveUp`
saved or a coroutine that is over.  `resumes_execute` follows a body that is on the CPU through its
remaining suspension points, by induction on what is left of it; the first `Resume`, which goes
through `StaticRun` and `Run`, leads into the same situation.
-/

namespace CoroutineCpp

universe u

namespace CoroutineObject

variable {Seg : Type u} {thread : ThreadId} {this : BitVec 64} {s : CoroutineObject Seg}

/-- The coroutine was switched in by a `Resume` on `thread`, and its body has not ended. -/
structure OnCpu (thread : ThreadId) (s : CoroutineObject Seg) : Prop where
  stack : s.co.stack = true
  masterCo : s.co.masterCo = some thread
  ucLink : s.co.ucLink = some thread
  exPtr : s.co.exPtr = none

/-- Both ways off the CPU lead to the thread that resumed the coroutine. -/
lemma OnCpu.execute_target (h : OnCpu thread s) (body : Body Seg) :
    (s.execute body).2 = some thread := by
  cases body with
  | finish seg ending => exact h.ucLink
  | giveUp seg rest => exact h.masterCo

/-- A coroutine that is over stays as it is. -/
lemma resume_of_over (h : s.co.status = .finished ∨ s.co.status = .except) :
    s.resume thread this = .ok s := by
  have hinert : s.co.resume thread = .inert := if_pos h
  simp [resume, hinert]

lemma resumes_of_over (h : s.co.status = .finished ∨ s.co.status = .except) (k : ℕ) :
    resumes thread this k s = .ok s := by
  induction k with
  | zero => rfl
  | succ k ih => rw [resumes, resume_of_over h]; exact ih

/-- A switch into the coroutine from which control comes back to the right thread. -/
lemma resume_of_switchIn {co : Coroutine} {r : CoroutineObject Seg × Option ThreadId}
    (hco : s.co.resume thread = .switched co)
    (hswitch : ({ s.prepare this with co := co }).switchIn this = some r)
    (htarget : r.2 = some thread) : s.resume thread this = .ok r.1 := by
  simp [resume, hco, hswitch, htarget]

/-- `Resume` of a coroutine that `GiveUp` has suspended goes on with the rest of the body. -/
lemma resume_of_suspended {rest : Body Seg} (hctx : s.ctx = .suspended rest)
    (hst : s.co.status = .hold) (h : OnCpu thread s) :
    s.resume thread this =
      .ok ({ s with co := { s.co with status := .running } }.execute rest).1 := by
  have hco : s.co.resume thread = .switched { s.co with status := .running } := by
    simp [Coroutine.resume, Coroutine.canResume, hst, Coroutine.prepare_of_stack h.stack]
  have hprep : s.prepare this = s := by simp [prepare, h.stack]
  refine resume_of_switchIn hco ?_ (OnCpu.execute_target ?_ rest)
  · rw [hprep]
    simp only [switchIn, hctx]
  · exact ⟨h.stack, h.masterCo, h.ucLink, h.exPtr⟩

/-- The first `Resume` sets up the stack and enters the body through `StaticRun` and `Run`. -/
lemma resume_construct (body : Body Seg) (ss : ℕ) :
    ∃ s : CoroutineObject Seg, (construct body ss).resume thread this = .ok (s.execute body).1 ∧
      OnCpu thread s ∧ s.executed = [] ∧ s.co.yieldCnt = 0 ∧
      s.allocs = [(construct body ss).stacksize] := by
  refine ⟨{ (construct body ss).prepare this with
    co := { ((construct body ss).co.prepare thread) with status := .running } }, ?_, ?_, ?_⟩
  · have hco : (construct body ss).co.resume thread =
        .switched { (construct body ss).co.prepare thread with status := .running } := rfl
    refine resume_of_switchIn hco ?_ (OnCpu.execute_target ?_ body)
    · simp [switchIn, prepare, construct, staticRun, joinHalves_halves, run]
    · exact ⟨rfl, rfl, rfl, rfl⟩
  · exact ⟨rfl, rfl, rfl, rfl⟩
  · exact ⟨rfl, rfl, rfl⟩

/-- Leaving the CPU, a body that has ended leaves a coroutine that is over. -/
lemma execute_finish_over (seg : Seg) (ending : Ending) :
    (s.execute (.finish seg ending)).1.co.status = .finished ∨
      (s.execute (.finish seg ending)).1.co.status = .except := by
  cases ending with
  | returned => exact .inl rfl
  | threw ex => exact .inr rfl

/-- A body on the CPU leaves it, and `k` more calls of `Resume` follow. -/
lemma resumes_execute (body : Body Seg) (h : OnCpu thread s) (k : ℕ) :
    ∃ s', resumes thread this k (s.execute body).1 = .ok s' ∧
      s'.executed = s.executed ++ body.segments.take (k + 1) ∧
      s'.co.status = (if k < body.giveUps then .hold else body.ending.status) ∧
      s'.co.exPtr = (if k < body.giveUps then none else body.ending.exception) ∧
      s'.co.yieldCnt = s.co.yieldCnt + min (k + 1) body.giveUps ∧
      s'.allocs = s.allocs := by
  induction body generalizing s k with
  | finish seg ending =>
    refine ⟨_, resumes_of_over (execute_finish_over seg ending) k, ?_⟩
    cases ending with
    | returned => simp [execute, runEnd, Coroutine.runReturned, Ending.status, Ending.exception,
        h.exPtr]
    | threw ex => simp [execute, runEnd, Coroutine.runThrew, Ending.status, Ending.exception]
  | giveUp seg rest ih =>
    cases k with
    | zero =>
      refine ⟨_, rfl, ?_⟩
      simp [execute, giveUp, Coroutine.giveUp, h.exPtr]
    | succ k =>
      -- the first of the calls finds the context that `GiveUp` saved
      have hcpu : OnCpu thread (s.execute (.giveUp seg rest)).1 :=
        ⟨h.stack, h.masterCo, h.ucLink, h.exPtr⟩
      obtain ⟨s', hrun, hexec, hst, hex, hyield, hallocs⟩ :=
        ih (s := { (s.execute (.giveUp seg rest)).1 with
          co := { (s.execute (.giveUp seg rest)).1.co with status := .running } })
          ⟨h.stack, h.masterCo, h.ucLink, h.exPtr⟩ k
      refine ⟨s', ?_, ?_, by simpa using hst, by simpa using hex, ?_, hallocs⟩
      · rw [resumes, resume_of_suspended rfl rfl hcpu]
        exact hrun
      · simpa [execute, giveUp] using hexec
      · rw [hyield]
        simp only [execute, giveUp, Coroutine.giveUp, Body.giveUps_giveUp]
        omega

/-- **The life cycle of a coroutine.**  A coroutine whose body calls `GiveUp` `n` times is resumed
`k` times by the same thread: no call fails; the first `min k (n + 1)` segments have been executed,
in order; the status, the number of yields and the stored exception are as stated; the stack has
been allocated by the first call and not again; and once the body has ended a further `Resume`
changes nothing. -/
theorem life_cycle (thread : ThreadId) (this : BitVec 64) (body : Body Seg) (ss k : ℕ) :
    ∃ s, resumes thread this k (construct body ss) = .ok s ∧
      s.executed = body.segments.take (min k (body.giveUps + 1)) ∧
      s.co.status =
        (if k = 0 then .idle else if k ≤ body.giveUps then .hold else body.ending.status) ∧
      s.co.yieldCnt = min k body.giveUps ∧
      s.allocs = (if k = 0 then [] else [(construct body ss).stacksize]) ∧
      s.co.exPtr = (if k ≤ body.giveUps then none else body.ending.exception) ∧
      (s.co.exPtr.isSome ↔ s.co.status = .except) ∧
      (body.giveUps < k → s.resume thread this = .ok s) := by
  cases k with
  | zero => exact ⟨_, rfl, by simp [construct]⟩
  | succ k =>
    obtain ⟨s₀, hfirst, hcpu, hexec₀, hyield₀, hallocs₀⟩ :=
      @resume_construct Seg thread this body ss
    obtain ⟨s, hrun, hexec, hst, hex, hyield, hallocs⟩ :=
      @resumes_execute Seg thread this _ body hcpu k
    have htake : body.segments.take (k + 1) =
        body.segments.take (min (k + 1) (body.giveUps + 1)) := by
      rw [← Body.length_segments, List.take_eq_take_min]
    refine ⟨s, ?_, ?_, ?_, ?_, ?_, ?_, ?_, fun hk => resume_of_over ?_⟩
    · rw [resumes, hfirst]
      exact hrun
    · rw [hexec, hexec₀, List.nil_append, htake]
    · rw [if_neg (Nat.succ_ne_zero k)]
      exact hst
    · simpa [hyield₀] using hyield
    · simpa [hallocs₀] using hallocs
    · exact hex
    · rw [hst, hex]
      split
      · simp
      · cases body.ending <;> simp [Ending.status, Ending.exception]
    · rw [hst, if_neg (by omega)]
      cases body.ending <;> simp [Ending.status]

end CoroutineObject

end CoroutineCpp
