import CoroutineCpp.Framework.Progress
import CoroutineCpp.Model.NestedResume

/-!
# Where control goes when a coroutine leaves

All contexts that `Resume` saves go into the one context of the thread's master coroutine, and all
coroutines go back to that one, which holds what the call of `Resume` that switched last on the
thread has saved (`Wf.slot_eq`).  The body that was switched in by that call goes back to it.  A
body that has switched a coroutine in itself (`switchedSince`) has come back from its call by
loading that context, so when it leaves the context is loaded once more: by then the call has
returned, and what happens is undefined.  `control_returns_iff` is this as a statement about runs.
-/

namespace CoroutineCpp

open Framework TransitionSystem

namespace SwitchState

variable {s s' : SwitchState} {a : SwitchAct} {c : CoId}

/-! ## Calls of `Resume` -/

/-- The context right after the call of `Resume` that resumed `c` last. -/
def returnPoint (c : CoId) : List ResumeCall → Option UContext
  | [] => none
  | call :: calls =>
    if call.target = c then some { owner := call.caller, point := .afterResume calls.length }
    else returnPoint c calls

/-- The body of `c` has switched a coroutine in since `c` was resumed last. -/
def switchedSince (c : CoId) : List ResumeCall → Bool
  | [] => false
  | call :: calls => call.target ≠ c && (call.caller = some c || switchedSince c calls)

/-- The context that the call of `Resume` that switched last has saved. -/
def latestReturn : List ResumeCall → Option UContext
  | [] => none
  | call :: calls => some { owner := call.caller, point := .afterResume calls.length }

/-- All calls that switched were made by the thread's own code. -/
def OwnCalls (s : SwitchState) : Prop := ∀ call ∈ s.calls, call.caller = none

lemma latestReturn_eq_some {calls : List ResumeCall} {context : UContext}
    (h : latestReturn calls = some context) : ∃ call rest, calls = call :: rest ∧
      context = { owner := call.caller, point := .afterResume rest.length } := by
  cases calls with
  | nil => cases h
  | cons call rest => exact ⟨call, rest, rfl, (Option.some.inj h).symm⟩

lemma switchedSince_of_own {calls : List ResumeCall} (h : ∀ call ∈ calls, call.caller = none) :
    switchedSince c calls = false := by
  induction calls with
  | nil => rfl
  | cons call calls ih =>
    obtain ⟨hcall, hcalls⟩ := List.forall_mem_cons.mp h
    simp [switchedSince, hcall, ih hcalls]

/-- `co'` is `co` but for what says how its body stands. -/
def SameLinks (co co' : Coroutine) : Prop :=
  co'.isMaster = co.isMaster ∧ co'.stack = co.stack ∧ co'.masterCo = co.masterCo ∧
    co'.ucLink = co.ucLink

/-! ## The invariant -/

/-- Coroutine `c` was switched in on the thread and has not left. -/
def Runs (s : SwitchState) (c : CoId) : Prop :=
  (s.coroutines c).stack = true ∧ (s.coroutines c).status = .running

/-- The context has been saved, and its coroutine or its call has gone on since. -/
def Spent (s : SwitchState) (context : UContext) : Prop :=
  match context.point with
  | .start => False
  | .entry => ∃ c, context.owner = some c ∧ (s.coroutines c).stack = true
  | .afterGiveUp k => ∃ c, context.owner = some c ∧ (k < (s.coroutines c).yieldCnt ∨
      k = (s.coroutines c).yieldCnt ∧ (s.coroutines c).status ≠ .hold)
  | .afterResume k => k < s.calls.length

/-- A coroutine has a stack exactly once it is bound to the thread, and one on hold has a context of
its own that was not loaded; the master coroutine holds what the latest call saved; and who runs
is told by whether that was loaded. -/
structure Wf (s : SwitchState) : Prop where
  plain : ∀ c, (s.coroutines c).isMaster = false
  bound : ∀ c, (s.coroutines c).stack = true →
    (s.coroutines c).masterCo = some s.thread ∧ (s.coroutines c).ucLink = some s.thread
  idle : ∀ c, (s.coroutines c).status = .idle → (s.coroutines c).stack = false
  held : ∀ c, (s.coroutines c).status = .hold →
    s.ctx c = some { owner := some c, point := .afterGiveUp (s.coroutines c).yieldCnt }
  spent : ∀ context ∈ s.loaded, s.Spent context
  slot_eq : s.masterCtx s.thread = latestReturn s.calls
  first : s.calls = [] → s.current.owner = none
  running : ∀ c, s.current.owner = some c → s.Runs c
  other : ∀ call calls, s.calls = call :: calls → call.caller ≠ some call.target
  /-- the call is still under way -/
  fresh : ∀ call calls, s.calls = call :: calls →
    { owner := call.caller, point := .afterResume calls.length } ∉ s.loaded →
    s.current.owner = some call.target ∧ ∀ d, call.caller = some d → s.Runs d
  /-- the call has returned -/
  back : ∀ call calls, s.calls = call :: calls →
    { owner := call.caller, point := .afterResume calls.length } ∈ s.loaded →
    s.current.owner = call.caller

lemma wf_of_init (h : switchSystem.init s) : s.Wf := by
  obtain ⟨thread, rfl⟩ := h
  exact ⟨fun _ => rfl, nofun, fun _ _ => rfl, nofun, nofun, rfl, fun _ => rfl, nofun, nofun, nofun,
    nofun⟩

/-! ## What a step can do -/

lemma load_of_mem {context : UContext} (h : context ∈ s.loaded) :
    s.load context = { s with undefined := true } := if_pos h

lemma load_of_notMem {context : UContext} (h : context ∉ s.loaded) :
    s.load context = { s with current := context, loaded := context :: s.loaded } := if_neg h

/-- The context that `Resume` switches to was not loaded before. -/
lemma Wf.madeContext (hs : s.Wf)
    (hst : (s.coroutines c).status = .idle ∨ (s.coroutines c).status = .hold) :
    ∃ context, s.madeContext c = some context ∧ context.owner = some c ∧ context ∉ s.loaded ∧
      (context.point = .entry ∨ context.point = .afterGiveUp (s.coroutines c).yieldCnt) := by
  unfold SwitchState.madeContext
  split
  next hnew =>
    have hstack : (s.coroutines c).stack = false := by
      simp only [Bool.and_eq_true, Bool.not_eq_true'] at hnew
      exact hnew.2
    refine ⟨_, rfl, rfl, fun hmem => ?_, .inl rfl⟩
    obtain ⟨d, hd, hstack'⟩ := hs.spent _ hmem
    cases hd
    simp [hstack] at hstack'
  next hold =>
    have hstack : (s.coroutines c).stack = true := by simpa [hs.plain c] using hold
    have hhold : (s.coroutines c).status = .hold := by
      refine hst.resolve_left fun hidle => ?_
      simp [hs.idle c hidle] at hstack
    refine ⟨_, hs.held c hhold, rfl, fun hmem => ?_, .inr rfl⟩
    obtain ⟨d, hd, hlt | ⟨-, hne⟩⟩ := hs.spent _ hmem <;> cases hd
    · exact Nat.lt_irrefl _ hlt
    · exact hne hhold

/-- What `Resume` can come to: nothing, a failed assertion, or a switch that saves what runs in the
master context of the thread. -/
lemma Wf.resume_cases (hs : s.Wf) (h : s.resume c = some s') :
    s' = s ∨ s' = { s with aborted := true } ∨
    (s.coroutines c).status ≠ .running ∧
    ∃ co context, co.isMaster = false ∧ co.stack = true ∧ co.masterCo = some s.thread ∧
      co.ucLink = some s.thread ∧ co.status = .running ∧
      co.yieldCnt = (s.coroutines c).yieldCnt ∧ context.owner = some c ∧
      (context.point = .entry ∨ context.point = .afterGiveUp (s.coroutines c).yieldCnt) ∧
      s' = { s with
        coroutines := Function.update s.coroutines c co
        ctx := Function.update s.ctx c (some context)
        masterCtx := Function.update s.masterCtx s.thread
          (some { owner := s.current.owner, point := .afterResume s.calls.length })
        current := context
        loaded := context :: s.loaded
        calls := { caller := s.current.owner, target := c } :: s.calls } := by
  unfold resume at h
  split at h
  next => exact .inl (Option.some.inj h).symm
  next => exact .inr (.inl (Option.some.inj h).symm)
  next co hco =>
    obtain ⟨hst, hco'⟩ := Coroutine.resume_eq_switched hco
    have hplain := hs.plain c
    have hlinks : co.isMaster = false ∧ co.stack = true ∧ co.masterCo = some s.thread ∧
        co.ucLink = some s.thread ∧ co.status = .running ∧
        co.yieldCnt = (s.coroutines c).yieldCnt := by
      rw [hco', Coroutine.prepare]
      split
      next => exact ⟨hplain, rfl, rfl, rfl, rfl, rfl⟩
      next hold =>
        have hstack : (s.coroutines c).stack = true := by simpa [hplain] using hold
        obtain ⟨hmaster, hlink⟩ := hs.bound c hstack
        exact ⟨hplain, hstack, hmaster, hlink, rfl, rfl⟩
    obtain ⟨context, hmade, howner, hnew, hpoint⟩ := hs.madeContext hst
    obtain ⟨hm, hstack, hmaster, hlink, hrun, hyield⟩ := hlinks
    simp only [hmaster, hmade] at h
    refine .inr (.inr ⟨by rcases hst with h | h <;> simp [h], co, context, hm, hstack, hmaster,
      hlink, hrun, hyield, howner, hpoint, ?_⟩)
    exact (Option.some.inj h).symm.trans (load_of_notMem hnew)

/-- What a coroutine that leaves does to itself. -/
structure Leaves (c : CoId) (co co' : Coroutine) (ctx ctx' : CoId → Option UContext) : Prop where
  links : SameLinks co co'
  status : co'.status ≠ .idle
  /-- it is on hold and has saved its context, or it is over -/
  saved : co.yieldCnt < co'.yieldCnt ∧
      ctx' c = some { owner := some c, point := .afterGiveUp co'.yieldCnt } ∨
    co'.yieldCnt = co.yieldCnt ∧ co'.status ≠ .hold
  others : ∀ d ≠ c, ctx' d = ctx d

/-- A body that leaves loads the context that the latest call of `Resume` saved. -/
lemma Wf.leave (hs : s.Wf) (halive : s.aborted = false) (hdef : s.undefined = false)
    (hleaves : a.leaves = true) (howner : s.current.owner = some c) :
    ∃ co ctx context, Leaves c (s.coroutines c) co s.ctx ctx ∧
      latestReturn s.calls = some context ∧
      s.step a = some (load { s with
        coroutines := Function.update s.coroutines c co, ctx := ctx } context) := by
  obtain ⟨call, calls, hcalls⟩ : ∃ call calls, s.calls = call :: calls := by
    refine List.exists_cons_of_ne_nil fun hnil => ?_
    simp [hs.first hnil] at howner
  obtain ⟨hmaster, hlink⟩ := hs.bound c (hs.running c howner).1
  have hlatest : latestReturn s.calls =
      some { owner := call.caller, point := .afterResume calls.length } := by rw [hcalls]; rfl
  have hslot := hs.slot_eq.trans hlatest
  cases a with
  | resume d => cases hleaves
  | giveUp =>
    refine ⟨(s.coroutines c).giveUp, _, _, ⟨⟨rfl, rfl, rfl, rfl⟩, by simp [Coroutine.giveUp],
      .inl ⟨Nat.lt_succ_self _, Function.update_self ..⟩, fun d hd => Function.update_of_ne hd ..⟩,
      hlatest, ?_⟩
    have hmaster' : (s.coroutines c).giveUp.masterCo = some s.thread := hmaster
    simp [step, halive, hdef, howner, giveUp, hmaster', hslot]
  | returned =>
    refine ⟨(s.coroutines c).runReturned, s.ctx, _, ⟨⟨rfl, rfl, rfl, rfl⟩,
      by simp [Coroutine.runReturned], .inr ⟨rfl, by simp [Coroutine.runReturned]⟩, fun _ _ => rfl⟩,
      hlatest, ?_⟩
    have hlink' : (s.coroutines c).runReturned.ucLink = some s.thread := hlink
    simp [step, halive, hdef, howner, finish, hlink', hslot]
  | threw ex =>
    refine ⟨(s.coroutines c).runThrew ex, s.ctx, _, ⟨⟨rfl, rfl, rfl, rfl⟩,
      by simp [Coroutine.runThrew], .inr ⟨rfl, by simp [Coroutine.runThrew]⟩, fun _ _ => rfl⟩,
      hlatest, ?_⟩
    have hlink' : ((s.coroutines c).runThrew ex).ucLink = some s.thread := hlink
    simp [step, halive, hdef, howner, finish, hlink', hslot]

/-- A step is a call of `Resume`, or the body of a coroutine leaves. -/
lemma step_cases (h : s.step a = some s') : s.aborted = false ∧ s.undefined = false ∧
    ((∃ c, a = .resume c ∧ s.resume c = some s') ∨
      a.leaves = true ∧ ∃ c, s.current.owner = some c) := by
  unfold step at h
  split at h
  next => cases h
  next halive =>
    simp only [Bool.or_eq_true, not_or, Bool.not_eq_true] at halive
    refine ⟨halive.1, halive.2, ?_⟩
    split at h
    next _ c => exact .inl ⟨c, rfl, h⟩
    next _ c howner => exact .inr ⟨rfl, c, howner⟩
    next _ c howner => exact .inr ⟨rfl, c, howner⟩
    next _ ex c howner => exact .inr ⟨rfl, c, howner⟩
    next => cases h

/-! ## Every step keeps the invariant -/

/-- A property of the coroutines after one of them has changed. -/
lemma forall_coroutine {P : CoId → Coroutine → Prop} {coroutines : CoId → Coroutine}
    {co : Coroutine} (hc : P c co) (h : ∀ d, P d (coroutines d)) (d : CoId) :
    P d (Function.update coroutines c co d) :=
  (Function.forall_update_iff coroutines P).mpr ⟨hc, fun d _ => h d⟩ d

/-- What is spent stays so when a coroutine goes on to another state. -/
lemma Spent.update {co : Coroutine} {context : UContext} {t : SwitchState} (h : s.Spent context)
    (hco : t.coroutines = Function.update s.coroutines c co)
    (hstack : co.stack = true)
    (hyield : (s.coroutines c).yieldCnt < co.yieldCnt ∨
      co.yieldCnt = (s.coroutines c).yieldCnt ∧ co.status ≠ .hold)
    (hcalls : s.calls.length ≤ t.calls.length) : t.Spent context := by
  unfold Spent at h ⊢
  rw [hco]
  split at h
  · exact h
  · obtain ⟨d, hd, hst⟩ := h
    refine ⟨d, hd, ?_⟩
    by_cases hdc : d = c
    · simp [hdc, hstack]
    · simpa [hdc] using hst
  · obtain ⟨d, hd, hk⟩ := h
    refine ⟨d, hd, ?_⟩
    by_cases hdc : d = c
    · subst hdc
      rw [Function.update_self]
      rcases hyield with hlt | ⟨heq, hne⟩
      · exact .inl (by rcases hk with hk | ⟨hk, -⟩ <;> omega)
      · exact heq.symm ▸ hk.imp_right fun hk => ⟨hk.1, hne⟩
    · simpa [hdc] using hk
  · exact Nat.lt_of_lt_of_le h hcalls

lemma Wf.resume (hs : s.Wf) (h : s.resume c = some s') : s'.Wf := by
  rcases hs.resume_cases h with rfl | rfl |
    ⟨hnot, co, context, hm, hstack, hmaster, hlink, hrun, hyield, howner, hpoint, rfl⟩
  · exact hs
  · exact { hs with }
  · -- the context of what runs is new in the master coroutine, and its call is under way
    have hnew : ∀ context' ∈ context :: s.loaded,
        context' ≠ { owner := s.current.owner, point := .afterResume s.calls.length } := by
      rintro context' hmem rfl
      rcases List.mem_cons.mp hmem with rfl | hmem
      · rcases hpoint with hpoint | hpoint <;> cases hpoint
      · exact Nat.lt_irrefl _ (hs.spent _ hmem)
    constructor
    · exact forall_coroutine (P := fun _ co => co.isMaster = false) hm hs.plain
    · exact forall_coroutine (P := fun _ co => co.stack = true →
        co.masterCo = some s.thread ∧ co.ucLink = some s.thread)
        (fun _ => ⟨hmaster, hlink⟩) hs.bound
    · exact forall_coroutine (P := fun _ co => co.status = .idle → co.stack = false)
        (fun hidle => by simp [hrun] at hidle) hs.idle
    · intro d hd
      have hdc : d ≠ c := by
        rintro rfl
        simp [hrun] at hd
      simpa [hdc] using hs.held d (by simpa [hdc] using hd)
    · refine List.forall_mem_cons.mpr ⟨?_, fun context' hmem => ?_⟩
      · unfold Spent
        rcases hpoint with hpoint | hpoint <;> rw [hpoint]
        · exact ⟨c, howner, by simp [hstack]⟩
        · exact ⟨c, howner, .inr (by simp [hyield, hrun])⟩
      · exact (hs.spent context' hmem).update rfl hstack (.inr ⟨hyield, by simp [hrun]⟩)
          (Nat.le_succ _)
    · simp [latestReturn]
    · exact nofun
    · intro d hd
      obtain rfl : c = d := Option.some.inj (howner.symm.trans hd)
      simp [Runs, hstack, hrun]
    · rintro call calls hcalls hcaller
      obtain ⟨rfl, rfl⟩ := List.cons.inj hcalls
      exact hnot (hs.running c hcaller).2
    · rintro call calls hcalls -
      obtain ⟨rfl, rfl⟩ := List.cons.inj hcalls
      refine ⟨howner, fun d hd => ?_⟩
      have hrunning : s.Runs d := hs.running d hd
      have hdc : d ≠ c := by
        rintro rfl
        exact hnot hrunning.2
      simpa [Runs, hdc] using hrunning
    · rintro call calls hcalls hmem
      obtain ⟨rfl, rfl⟩ := List.cons.inj hcalls
      exact absurd rfl (hnew _ hmem)

/-- After a body has left by a context that is good, the one who made the latest call runs. -/
lemma Wf.left (hs : s.Wf) {co : Coroutine} {ctx : CoId → Option UContext} {context : UContext}
    (hleaves : Leaves c (s.coroutines c) co s.ctx ctx) (howner : s.current.owner = some c)
    (hlatest : latestReturn s.calls = some context) (hnew : context ∉ s.loaded) :
    Wf { s with
      coroutines := Function.update s.coroutines c co, ctx := ctx, current := context
      loaded := context :: s.loaded } := by
  obtain ⟨⟨hm, hstack, hmaster, hlink⟩, hidle, hsaved, hothers⟩ := hleaves
  obtain ⟨call, calls, hcalls, rfl⟩ := latestReturn_eq_some hlatest
  obtain ⟨htarget, hcaller⟩ := hs.fresh call calls hcalls hnew
  obtain rfl : c = call.target := Option.some.inj (howner.symm.trans htarget)
  have hstack' : co.stack = true := hstack.trans (hs.running _ howner).1
  have hruns : ∀ d, call.caller = some d → Runs { s with
      coroutines := Function.update s.coroutines call.target co, ctx := ctx
      current := { owner := call.caller, point := .afterResume calls.length }
      loaded := { owner := call.caller, point := .afterResume calls.length } :: s.loaded } d := by
    intro d hd
    have hdc : d ≠ call.target := by
      rintro rfl
      exact hs.other call calls hcalls hd
    simpa [Runs, hdc] using hcaller d hd
  constructor
  · exact forall_coroutine (P := fun _ co => co.isMaster = false) (hm.trans (hs.plain _)) hs.plain
  · exact forall_coroutine (P := fun _ co => co.stack = true →
      co.masterCo = some s.thread ∧ co.ucLink = some s.thread)
      (fun _ => by rw [hmaster, hlink]; exact hs.bound _ (hs.running _ howner).1) hs.bound
  · exact forall_coroutine (P := fun _ co => co.status = .idle → co.stack = false)
      (fun h => absurd h hidle) hs.idle
  · intro d hd
    by_cases hdc : d = call.target
    · subst hdc
      simp only [Function.update_self] at hd ⊢
      rcases hsaved with ⟨-, hctx⟩ | ⟨-, hne⟩
      · exact hctx
      · exact absurd hd hne
    · simp only [Function.update_of_ne hdc] at hd ⊢
      rw [hothers d hdc]
      exact hs.held d hd
  · refine List.forall_mem_cons.mpr ⟨?_, fun context' hmem => ?_⟩
    · simp [Spent, hcalls]
    · exact (hs.spent context' hmem).update rfl hstack' (hsaved.imp_left And.left)
        (Nat.le_refl _)
  · exact hs.slot_eq
  · intro hnil
    rw [hnil] at hcalls
    cases hcalls
  · exact hruns
  · exact hs.other
  · rintro call' calls' hcalls' hnot
    obtain ⟨rfl, rfl⟩ := List.cons.inj (hcalls.symm.trans hcalls')
    exact absurd List.mem_cons_self hnot
  · rintro call' calls' hcalls' -
    obtain ⟨rfl, rfl⟩ := List.cons.inj (hcalls.symm.trans hcalls')
    rfl

lemma Wf.step (hs : s.Wf) (h : s.step a = some s') : s'.Wf ∨ s'.undefined = true := by
  obtain ⟨halive, hdef, ⟨c, -, hresume⟩ | ⟨hleaves, c, howner⟩⟩ := step_cases h
  · exact .inl (hs.resume hresume)
  · obtain ⟨co, ctx, context, hc, hlatest, hstep⟩ := hs.leave halive hdef hleaves howner
    obtain rfl := Option.some.inj (hstep.symm.trans h)
    by_cases hmem : context ∈ s.loaded
    · exact .inr (by rw [load_of_mem (by exact hmem)])
    · refine .inl ?_
      rw [load_of_notMem (by exact hmem)]
      exact hs.left hc howner hlatest hmem

lemma reachable_wf {G : SwitchState → SwitchAct → Prop} (h : switchSystem.ReachableUnder G s) :
    s.Wf ∨ s.undefined = true := by
  refine h.invariant (I := fun s => s.Wf ∨ s.undefined = true)
    (fun s hinit => .inl (wf_of_init hinit)) fun s a s' _ hI _ hstep => ?_
  exact (hI.resolve_right (by simp [(step_cases hstep).2.1])).step hstep

/-! ## Where control goes -/

/-- The context of the latest call is good exactly while the coroutine that runs has switched
nobody in. -/
lemma Wf.notMem_loaded_iff (hs : s.Wf) (howner : s.current.owner = some c) {context : UContext}
    (hlatest : latestReturn s.calls = some context) :
    context ∉ s.loaded ↔ switchedSince c s.calls = false := by
  obtain ⟨call, calls, hcalls, rfl⟩ := latestReturn_eq_some hlatest
  constructor
  · intro hnew
    obtain ⟨htarget, -⟩ := hs.fresh call calls hcalls hnew
    have heq : call.target = c := Option.some.inj (htarget.symm.trans howner)
    simp [hcalls, switchedSince, heq]
  · intro hsince hmem
    have hcaller : call.caller = some c := (hs.back call calls hcalls hmem).symm.trans howner
    have hne : call.target ≠ c := by
      rintro rfl
      exact hs.other call calls hcalls hcaller
    simp [hcalls, switchedSince, hne, hcaller] at hsince

/-- The step, where a coroutine leaves, is defined and goes on right after the call of `Resume` that
resumed the coroutine last. -/
def Returns (s : SwitchState) (a : SwitchAct) : Prop :=
  ∀ c s', a.leaves = true → s.current.owner = some c → switchSystem.step s a = some s' →
    s'.undefined = false ∧ some s'.current = returnPoint c s.calls

/-- The coroutine that leaves by the step has switched nobody in since it was resumed last. -/
def LeavesAlone (s : SwitchState) (a : SwitchAct) : Prop :=
  ∀ c, a.leaves = true → s.current.owner = some c → switchedSince c s.calls = false

/-- What a leaving coroutine does, by whether it has switched another one in. -/
lemma Wf.leave_iff (hs : s.Wf) (halive : s.aborted = false) (hdef : s.undefined = false)
    (hleaves : a.leaves = true) (howner : s.current.owner = some c) :
    ∃ s', s.step a = some s' ∧
      (s'.undefined = false ∧ some s'.current = returnPoint c s.calls ↔
        switchedSince c s.calls = false) ∧
      (s'.undefined = false → ∃ call ∈ s.calls, s'.current.owner = call.caller) := by
  obtain ⟨co, ctx, context, -, hlatest, hstep⟩ := hs.leave halive hdef hleaves howner
  have hiff := hs.notMem_loaded_iff howner hlatest
  obtain ⟨call, calls, hcalls, rfl⟩ := latestReturn_eq_some hlatest
  refine ⟨_, hstep, ?_⟩
  by_cases hmem : { owner := call.caller, point := .afterResume calls.length } ∈ s.loaded
  · rw [load_of_mem (by exact hmem)]
    have hsince : switchedSince c s.calls ≠ false := fun h => hiff.mpr h hmem
    simp [hsince]
  · rw [load_of_notMem (by exact hmem)]
    obtain ⟨htarget, -⟩ := hs.fresh call calls hcalls hmem
    have heq : call.target = c := Option.some.inj (htarget.symm.trans howner)
    have hpoint : returnPoint c s.calls =
        some { owner := call.caller, point := .afterResume calls.length } := by
      rw [hcalls, returnPoint, if_pos heq]
    exact ⟨iff_of_true ⟨hdef, hpoint.symm⟩ (hiff.mp hmem), fun _ => ⟨call, by simp [hcalls], rfl⟩⟩

/-- **A step goes where it should, and is defined, exactly when who leaves has switched nobody
in.** -/
lemma Wf.step_iff (hs : s.Wf) (hdef : s.undefined = false)
    (h : switchSystem.step s a = some s') :
    s'.undefined = false ∧ s.Returns a ↔ s.LeavesAlone a := by
  obtain ⟨halive, -, ⟨c, rfl, hresume⟩ | ⟨hleaves, c, howner⟩⟩ := step_cases h
  · refine iff_of_true ⟨?_, fun _ _ hleaves => by cases hleaves⟩ fun _ hleaves => by cases hleaves
    rcases hs.resume_cases hresume with rfl | rfl |
      ⟨-, co, context, -, -, -, -, -, -, -, -, rfl⟩ <;> exact hdef
  · obtain ⟨t, hstep, hiff, -⟩ := hs.leave_iff halive hdef hleaves howner
    obtain rfl := Option.some.inj (hstep.symm.trans h)
    constructor
    · rintro ⟨-, hreturns⟩ d - hd
      obtain rfl := Option.some.inj (howner.symm.trans hd)
      exact hiff.mp (hreturns c t hleaves howner h)
    · intro halone
      have hgood := hiff.mpr (halone c hleaves howner)
      refine ⟨hgood.1, fun d t' _ hd hstep' => ?_⟩
      obtain rfl := Option.some.inj (howner.symm.trans hd)
      obtain rfl := Option.some.inj (h.symm.trans hstep')
      exact hgood

/-! ## The thread's own code -/

/-- A coroutine has made the latest call, and a coroutine runs. -/
def Captive (s : SwitchState) : Prop :=
  (∃ call calls, s.calls = call :: calls ∧ call.caller ≠ none) ∧ s.current.owner ≠ none

lemma Captive.step (hcap : s.Captive) (hs : s.Wf) (h : s.step a = some s') : s'.Captive := by
  obtain ⟨⟨call, calls, hcalls, hcaller⟩, hrun⟩ := hcap
  obtain ⟨halive, hdef, ⟨c, -, hresume⟩ | ⟨hleaves, c, howner⟩⟩ := step_cases h
  · rcases hs.resume_cases hresume with rfl | rfl |
      ⟨-, co, context, -, -, -, -, -, -, howner, -, rfl⟩
    · exact ⟨⟨call, calls, hcalls, hcaller⟩, hrun⟩
    · exact ⟨⟨call, calls, hcalls, hcaller⟩, hrun⟩
    · exact ⟨⟨_, _, rfl, hrun⟩, by simp [howner]⟩
  · obtain ⟨co, ctx, context, -, hlatest, hstep⟩ := hs.leave halive hdef hleaves howner
    obtain rfl := Option.some.inj (hstep.symm.trans h)
    rw [hcalls] at hlatest
    obtain rfl := Option.some.inj hlatest
    unfold load
    split
    · exact ⟨⟨call, calls, hcalls, hcaller⟩, hrun⟩
    · exact ⟨⟨call, calls, hcalls, hcaller⟩, hcaller⟩

lemma own_or_captive_step (hI : s.OwnCalls ∨ s.Captive) (hs : s.Wf) (h : s.step a = some s') :
    s'.OwnCalls ∨ s'.Captive := by
  rcases hI with hown | hcap
  · obtain ⟨halive, hdef, ⟨c, -, hresume⟩ | ⟨hleaves, c, howner⟩⟩ := step_cases h
    · rcases hs.resume_cases hresume with rfl | rfl |
        ⟨-, co, context, -, -, -, -, -, -, howner, -, rfl⟩
      · exact .inl hown
      · exact .inl hown
      · by_cases hnone : s.current.owner = none
        · exact .inl (List.forall_mem_cons.mpr ⟨hnone, hown⟩)
        · exact .inr ⟨⟨_, _, rfl, hnone⟩, by simp [howner]⟩
    · obtain ⟨co, ctx, context, -, -, hstep⟩ := hs.leave halive hdef hleaves howner
      obtain rfl := Option.some.inj (hstep.symm.trans h)
      refine .inl ?_
      unfold load
      split <;> exact hown
  · exact .inr (hcap.step hs h)

lemma reachable_own_or_captive (h : switchSystem.Reachable s) : s.OwnCalls ∨ s.Captive := by
  refine h.invariant (I := fun s => s.OwnCalls ∨ s.Captive) (fun s hinit => ?_)
    fun s a s' hreach hI _ hstep => ?_
  · obtain ⟨thread, rfl⟩ := hinit
    exact .inl (List.forall_mem_nil _)
  · have hs := (reachable_wf hreach).resolve_right (by simp [(step_cases hstep).2.1])
    exact own_or_captive_step hI hs hstep

/-- Nothing undefined happens while only the thread's own code switches coroutines in. -/
lemma reachable_defined (h : switchSystem.Reachable s) (hown : s.OwnCalls) :
    s.undefined = false := by
  refine h.invariant (I := fun s => s.OwnCalls → s.undefined = false) ?_ ?_ hown
  · rintro s ⟨thread, rfl⟩ -
    rfl
  · intro s a s' hreach hI _ hstep hown'
    obtain ⟨halive, hdef, ⟨c, -, hresume⟩ | ⟨hleaves, c, howner⟩⟩ := step_cases hstep
    all_goals have hs := (reachable_wf hreach).resolve_right (by simp [hdef])
    · rcases hs.resume_cases hresume with rfl | rfl |
        ⟨-, co, context, -, -, -, -, -, -, -, -, rfl⟩ <;> exact hdef
    · obtain ⟨co, ctx, context, -, hlatest, hstep'⟩ := hs.leave halive hdef hleaves howner
      obtain rfl := Option.some.inj (hstep'.symm.trans hstep)
      have hcalls : s.OwnCalls := by
        unfold load at hown'
        split at hown' <;> exact hown'
      rw [load_of_notMem (by
        exact (hs.notMem_loaded_iff howner hlatest).mpr (switchedSince_of_own hcalls))]
      exact hdef

/-! ## The result -/

/-- **Control returns to the resumer exactly while nobody leaves who has switched another one in.**
In every run, all loads are defined and every coroutine that gives up, returns or throws goes on
right after the call of `Resume` that resumed it last, if and only if no coroutine leaves that has
switched another one in since it was resumed last.  A coroutine can always leave, and while only the
thread's own code has switched coroutines in, that gives control back to this code; once a body has
switched one in, the thread's own code never runs again. -/
theorem control_returns_iff {tr : List (SwitchState × SwitchAct)}
    (h : switchSystem.Exec (fun _ _ => True) tr s) :
    (AlwaysState (fun s => s.undefined = false) tr s ∧ AlwaysStep Returns tr ↔
      AlwaysStep LeavesAlone tr) ∧
    (∀ a c, s.aborted = false → s.undefined = false → a.leaves = true →
      s.current.owner = some c → ∃ s', switchSystem.step s a = some s' ∧
        (s.OwnCalls → s'.undefined = false ∧ s'.current.owner = none)) ∧
    (s.OwnCalls → s.undefined = false) ∧
    (¬s.OwnCalls → ∀ s', (switchSystem.startAt s).Reachable s' → s'.current.owner ≠ none) := by
  have hreach := h.reachableUnder
  refine ⟨h.always_and_iff ?_ ?_, fun a c halive hdef hleaves howner => ?_,
    reachable_defined hreach, fun hnested s' hgoes => ?_⟩
  · rintro s ⟨thread, rfl⟩
    rfl
  · intro s a s' hreach hdef _ hstep
    exact ((reachable_wf hreach).resolve_right (by simp [hdef])).step_iff hdef hstep
  · have hs := (reachable_wf hreach).resolve_right (by simp [hdef])
    obtain ⟨s', hstep, hiff, hback⟩ := hs.leave_iff halive hdef hleaves howner
    refine ⟨s', hstep, fun hown => ?_⟩
    have hgood := (hiff.mpr (switchedSince_of_own hown)).1
    obtain ⟨call, hcall, hcaller⟩ := hback hgood
    exact ⟨hgood, hcaller.trans (hown call hcall)⟩
  · have hcap : s.Captive := (reachable_own_or_captive hreach).resolve_left hnested
    have hboth : (s'.Wf ∨ s'.undefined = true) ∧ s'.Captive := by
      refine hgoes.invariant_startAt (I := fun t => (t.Wf ∨ t.undefined = true) ∧ t.Captive)
        ⟨reachable_wf hreach, hcap⟩ fun t a t' _ hI _ hstep => ?_
      have ht := hI.1.resolve_right (by simp [(step_cases hstep).2.1])
      exact ⟨ht.step hstep, hI.2.step ht hstep⟩
    exact hboth.2.2

/-- The thread resumes coroutine `1`, which resumes coroutine `2`; `2` gives up and is back in `1`,
right after the call that resumed it. -/
theorem control_returns_nested :
    ∃ tr s, switchSystem.Exec (fun _ _ => True) tr s ∧
      s.current = { owner := some 1, point := .afterResume 1 } ∧ ¬s.OwnCalls ∧
      AlwaysStep Returns tr ∧
      ∀ s', (switchSystem.startAt s).Reachable s' → s'.current.owner ≠ none := by
  obtain ⟨tr, s, hexec, hp⟩ := exists_exec_of_traceUnder (G := fun _ _ => True) (M := switchSystem)
    [.resume 1, .resume 2, .giveUp]
    (fun tr s => s.current = { owner := some 1, point := .afterResume 1 } &&
      s.calls = [{ caller := some 1, target := 2 }, { caller := none, target := 1 }] &&
      tr.all fun q => q.2.leaves → q.1.current.owner = some 2 ∧ switchedSince 2 q.1.calls = false)
    ⟨0, rfl⟩ (by decide)
  simp only [Bool.and_eq_true, decide_eq_true_eq, List.all_eq_true] at hp
  obtain ⟨⟨hcurrent, hcalls⟩, halone⟩ := hp
  have hnested : ¬s.OwnCalls := by simp [OwnCalls, hcalls]
  obtain ⟨hiff, -, -, hnever⟩ := control_returns_iff hexec
  refine ⟨tr, s, hexec, hcurrent, hnested, (hiff.mpr ?_).2, hnever hnested⟩
  intro q hq c hleaves howner
  obtain ⟨htwo, hsince⟩ := halone q hq hleaves
  obtain rfl : 2 = c := Option.some.inj (htwo.symm.trans howner)
  exact hsince

/-- The thread resumes coroutine `1`, which resumes coroutine `2`.  When `2` has returned and `1`
gives up, the context that the call of `1` had saved is loaded once more, though that call has
returned. -/
theorem control_returns_counterexample :
    ¬∀ tr s, switchSystem.Exec (fun _ _ => True) tr s → AlwaysStep Returns tr := by
  intro hclaim
  obtain ⟨tr, s, hexec, hp⟩ := exists_exec_of_traceUnder (G := fun _ _ => True) (M := switchSystem)
    [.resume 1, .resume 2, .returned, .giveUp]
    (fun tr _ => tr.any fun q => q.2.leaves && q.1.current.owner = some 1 &&
      (q.1.step q.2).map (·.undefined) = some true)
    ⟨0, rfl⟩ (by decide)
  obtain ⟨q, hq, hp⟩ := List.any_eq_true.mp hp
  simp only [Bool.and_eq_true, decide_eq_true_eq] at hp
  obtain ⟨⟨hleaves, howner⟩, hstep⟩ := hp
  obtain ⟨s', hs', hundef⟩ := Option.map_eq_some_iff.mp hstep
  obtain ⟨hgood, -⟩ := hclaim tr s hexec q hq 1 s' hleaves howner hs'
  rw [hgood] at hundef
  cases hundef

end SwitchState

end CoroutineCpp
