import CoroutineCpp.Framework.Accounting
import CoroutineCpp.Model.LockGuards

/-!
# What the lock guards promise

As long as no call for the lock fails, the guards and the lock agree (`Matched`): it is held for
reading once for each `RdLockGuard`, and for writing by the thread of the one `WrLockGuard`, beside
which there is no other guard.  The condition is on the program: a call fails only in a thread that
has a `WrLockGuard` already, or where there are too many readers.  Such a guard gives back a lock
that it did not get (`exists_nested`).
-/

namespace CoroutineCpp

open Framework TransitionSystem

namespace LockScopes

variable {s s' : LockScopes} {g : LockGuard} {mode : LockMode} {p : ThreadId} {full : Bool} {i : ℕ}

/-- The threads of the guards of one class. -/
def holders (mode : LockMode) (gs : List LockGuard) : List ThreadId :=
  (gs.filter (·.mode = mode)).map (·.thread)

/-- The lock is held as the guards have it. -/
structure Matched (s : LockScopes) : Prop where
  defined : s.isUndefined = false
  locked : ∀ g ∈ s.guards, g.locked = true
  readers : s.mutex.readers.Perm (holders .rd s.guards)
  writer : s.mutex.writer.toList.Perm (holders .wr s.guards)
  apart : s.mutex.writer = none ∨ s.mutex.readers = []

/-! ## The guards of one class -/

lemma holders_cons_self (g : LockGuard) (gs : List LockGuard) :
    holders g.mode (g :: gs) = g.thread :: holders g.mode gs := by
  simp [holders]

lemma holders_cons_of_ne (gs : List LockGuard) (h : g.mode ≠ mode) :
    holders mode (g :: gs) = holders mode gs := by
  simp [holders, h]

lemma holders_perm {gs gs' : List LockGuard} (h : gs.Perm gs') :
    (holders mode gs).Perm (holders mode gs') :=
  (h.filter _).map _

lemma mem_holders {gs : List LockGuard} (hg : g ∈ gs) : g.thread ∈ holders g.mode gs :=
  List.mem_map_of_mem (List.mem_filter.mpr ⟨hg, decide_eq_true rfl⟩)

/-! ## A step -/

lemma matched_init : Matched {} where
  defined := rfl
  locked := by simp
  readers := .refl _
  writer := .refl _
  apart := .inl rfl

/-- The constructor takes the lock for its guard. -/
lemma Matched.construct (h : s.Matched) (hG : s.refuses (.construct mode p full) = false)
    (hs : s.step (.construct mode p full) = some s') : s'.Matched := by
  obtain ⟨m, hlock, rfl⟩ := Option.map_eq_some_iff.mp hs
  have hlocked : ∀ g ∈ LockGuard.mk mode p true :: s.guards, g.locked = true :=
    List.forall_mem_cons.mpr ⟨rfl, h.locked⟩
  have hwriter : s.mutex.writer = none := by
    cases hw : s.mutex.writer with
    | none => rfl
    | some q =>
      have hq : q ≠ p := fun heq => by simp [refuses, hw, heq] at hG
      cases mode <;> simp [RWMutex.lock, RWMutex.rdLock, RWMutex.wrLock, hw, hq] at hlock
  cases mode with
  | rd =>
    have hfull : full = false := by simpa [refuses, hwriter] using hG
    obtain rfl : { s.mutex with readers := p :: s.mutex.readers } = m := by
      simpa [RWMutex.lock, RWMutex.rdLock, hwriter, hfull] using hlock
    exact ⟨h.defined, hlocked, h.readers.cons p, h.writer, .inl hwriter⟩
  | wr =>
    obtain ⟨hreaders, rfl⟩ : s.mutex.readers = [] ∧ { s.mutex with writer := some p } = m := by
      simpa [RWMutex.lock, RWMutex.wrLock, hwriter] using hlock
    have hnone : (holders .wr s.guards).Perm [] := by simpa [hwriter] using h.writer.symm
    refine ⟨h.defined, hlocked, h.readers, ?_, .inr hreaders⟩
    exact (hnone.cons p).symm

/-- The destructor gives back what its guard took. -/
lemma Matched.destroy (h : s.Matched) (hs : s.step (.destroy i) = some s') : s'.Matched := by
  obtain ⟨g, hg, rfl⟩ := Option.map_eq_some_iff.mp hs
  have hperm := perm_cons_eraseIdx hg
  have hmem : g ∈ s.guards := List.mem_of_getElem? hg
  have hlocked : ∀ g' ∈ s.guards.eraseIdx i, g'.locked = true := fun g' hg' =>
    h.locked g' (List.mem_of_mem_eraseIdx hg')
  rw [LockScopes.destroy, if_pos (h.locked g hmem)]
  have hreaders := h.readers.trans (holders_perm hperm)
  have hwriter := h.writer.trans (holders_perm hperm)
  cases hmode : g.mode with
  | rd =>
    have hin : g.thread ∈ s.mutex.readers := h.readers.symm.subset (hmode ▸ mem_holders hmem)
    have hnone : s.mutex.writer = none := h.apart.resolve_right (List.ne_nil_of_mem hin)
    rw [← hmode, holders_cons_self, hmode] at hreaders
    rw [holders_cons_of_ne _ (by simp [hmode])] at hwriter
    have hunlock : s.mutex.unlock g.thread =
        some { s.mutex with readers := s.mutex.readers.erase g.thread } := by
      simp [RWMutex.unlock, hnone, hin]
    simp only [hunlock]
    refine ⟨h.defined, hlocked, ?_, hwriter, .inl hnone⟩
    exact (List.cons_perm_iff_perm_erase.mp hreaders.symm).2.symm
  | wr =>
    rw [holders_cons_of_ne _ (by simp [hmode])] at hreaders
    rw [← hmode, holders_cons_self, hmode] at hwriter
    have hin : s.mutex.writer = some g.thread := by
      have hin : g.thread ∈ s.mutex.writer.toList := hwriter.symm.subset List.mem_cons_self
      simpa using hin
    have hunlock : s.mutex.unlock g.thread = some { s.mutex with writer := none } := by
      simp [RWMutex.unlock, hin]
    simp only [hunlock]
    rw [hin] at hwriter
    exact ⟨h.defined, hlocked, hreaders, (List.perm_cons _).mp hwriter, .inl rfl⟩

lemma reachable_matched (h : guardSystem.ReachableUnder (fun s a => s.refuses a = false) s) :
    s.Matched := by
  refine h.invariant (fun s hs => hs ▸ matched_init) fun s a s' _ hm hG hs => ?_
  cases a with
  | construct mode p full => exact hm.construct hG hs
  | destroy i => exact hm.destroy hs

/-! ## The scopes -/

/-- Beside a `WrLockGuard` there is no other guard. -/
lemma Matched.alone (h : s.Matched) (hg : g ∈ s.guards) (hmode : g.mode = .wr) :
    s.guards = [g] ∧ s.mutex = { writer := some g.thread } := by
  have hin : g.thread ∈ s.mutex.writer.toList := h.writer.symm.subset (hmode ▸ mem_holders hg)
  have hwriter : s.mutex.writer = some g.thread := by simpa using hin
  have hreaders : s.mutex.readers = [] := h.apart.resolve_left (by simp [hwriter])
  obtain ⟨i, hi⟩ := List.mem_iff_getElem?.mp hg
  have hperm := perm_cons_eraseIdx hi
  have hrest : s.guards.eraseIdx i = [] := by
    rw [List.eq_nil_iff_forall_not_mem]
    intro g' hg'
    cases hmode' : g'.mode with
    | rd =>
      have hmem : g'.thread ∈ s.mutex.readers :=
        h.readers.symm.subset (hmode' ▸ mem_holders (List.mem_of_mem_eraseIdx hg'))
      rw [hreaders] at hmem
      cases hmem
    | wr =>
      have hlength := (h.writer.trans (holders_perm hperm)).length_eq
      rw [hwriter, ← hmode, holders_cons_self, hmode] at hlength
      have hmem : g'.thread ∈ holders .wr (s.guards.eraseIdx i) := hmode' ▸ mem_holders hg'
      rw [List.eq_nil_of_length_eq_zero (Nat.succ.inj hlength.symm)] at hmem
      cases hmem
  rw [hrest] at hperm
  exact ⟨List.perm_singleton.mp hperm, congrArg₂ RWMutex.mk hwriter hreaders⟩

/-- **A guard in the scope of a `WrLockGuard`**, in the same thread, takes the lock away from it:
once it is destroyed the lock is free, and the other destructor unlocks what nobody holds. -/
lemma Matched.exists_nested (h : s.Matched) (hg : g ∈ s.guards) (hmode : g.mode = .wr)
    (mode : LockMode) (full : Bool) :
    ∃ s₁ s₂ s₃, s.step (.construct mode g.thread full) = some s₁ ∧
      s₁.step (.destroy 0) = some s₂ ∧ s₂.guards = s.guards ∧ s₂.mutex = {} ∧
      s₂.step (.destroy 0) = some s₃ ∧ s₃.isUndefined = true := by
  obtain ⟨hguards, hmutex⟩ := h.alone hg hmode
  have hlocked := h.locked g hg
  have hlock : s.mutex.lock mode g.thread full = some s.mutex := by
    cases mode <;> simp [hmutex, RWMutex.lock, RWMutex.rdLock, RWMutex.wrLock]
  refine ⟨{ s with guards := { mode := mode, thread := g.thread, locked := true } :: s.guards },
    { s with mutex := {} }, { s with mutex := {}, guards := [], isUndefined := true },
    ?_, ?_, rfl, rfl, ?_, rfl⟩
  · simp [step, hlock]
  · simp [step, LockScopes.destroy, hmutex, RWMutex.unlock]
  · simp [step, LockScopes.destroy, hguards, hlocked, RWMutex.unlock]

/-- **The guards keep readers and writers apart**, in every run in which no call for the lock fails:
the lock is held as the guards have it, and by nobody once they are gone; a `WrLockGuard` is the
only guard; beside a `RdLockGuard` every constructor of a `WrLockGuard` waits, in the same thread
too; and no thread unlocks what it does not hold.  With one more guard in the thread of a
`WrLockGuard` all this is lost. -/
theorem guards_exclusive
    (h : guardSystem.ReachableUnder (fun s a => s.refuses a = false) s) :
    s.isUndefined = false ∧ s.mutex.readers.Perm (holders .rd s.guards) ∧
      s.mutex.writer.toList.Perm (holders .wr s.guards) ∧
      (∀ g ∈ s.guards, g.mode = .rd → ∀ p full, s.step (.construct .wr p full) = none) ∧
      ∀ g ∈ s.guards, g.mode = .wr → s.guards = [g] ∧
        ∀ mode full, ∃ s₁ s₂ s₃, s.step (.construct mode g.thread full) = some s₁ ∧
          s₁.step (.destroy 0) = some s₂ ∧ s₂.guards = s.guards ∧ s₂.mutex = {} ∧
          s₂.step (.destroy 0) = some s₃ ∧ s₃.isUndefined = true := by
  have hm := reachable_matched h
  refine ⟨hm.defined, hm.readers, hm.writer, fun g hg hmode p full => ?_, fun g hg hmode =>
    ⟨(hm.alone hg hmode).1, hm.exists_nested hg hmode⟩⟩
  have hin : g.thread ∈ s.mutex.readers := hm.readers.symm.subset (hmode ▸ mem_holders hg)
  have hreaders : s.mutex.readers ≠ [] := List.ne_nil_of_mem hin
  have hwriter : s.mutex.writer = none := hm.apart.resolve_right hreaders
  simp [step, RWMutex.lock, RWMutex.wrLock, hwriter, hreaders]

/-- Two readers at once, and then a writer. -/
theorem guards_exclusive_scopes :
    ∃ s, guardSystem.ReachableUnder (fun s a => s.refuses a = false) s ∧
      s.mutex.writer = some 2 ∧ s.isUndefined = false ∧
      ∃ g, s.guards = [g] ∧ ∃ s₁ s₂, s.step (.construct .rd 2 false) = some s₁ ∧
        s₁.step (.destroy 0) = some s₂ ∧ s₂.guards = s.guards ∧ s₂.mutex = {} := by
  obtain ⟨s, h, hp⟩ := exists_reachable_of_runUnder
    (G := fun s a => LockScopes.refuses s a = false) (M := guardSystem)
    [.construct .rd 1 false, .construct .rd 2 false, .destroy 1, .destroy 0,
      .construct .wr 2 false]
    (fun s => s.mutex.writer = some 2 && s.guards = [⟨.wr, 2, true⟩]) rfl (by decide)
  simp only [Bool.and_eq_true, decide_eq_true_eq] at hp
  obtain ⟨hdefined, -, -, -, hwrite⟩ := guards_exclusive h
  obtain ⟨hguards, hnested⟩ := hwrite ⟨.wr, 2, true⟩ (by simp [hp.2]) rfl
  obtain ⟨s₁, s₂, -, h₁, h₂, hsame, hfree, -⟩ := hnested .rd false
  exact ⟨s, h, hp.1, hdefined, _, hguards, s₁, s₂, h₁, h₂, hsame, hfree⟩

end LockScopes

end CoroutineCpp
