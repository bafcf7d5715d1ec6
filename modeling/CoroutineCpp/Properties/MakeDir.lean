import CoroutineCpp.Model.FileUtils
import Mathlib.Data.List.Range
import Mathlib.Data.List.TakeWhile

/-!
# The directories `MakeDir` makes

`chain dirname` lists the prefixes of the path before each separator, and the path itself.  The loop
over the buffer calls `__mkdir` on these, from left to right and up to the first failure: that is
`attempt`, and `makeDir_eq_attempt` connects the two.  What follows for a file system is proved
about `attempt`.
-/

namespace CoroutineCpp

namespace FileUtils

variable {σ : Type*} {sys : Syscalls σ} {dirname : Path} {env : σ}

/-! ## What is to be done -/

/-- The positions of the separators from index `k` on. -/
def separators (dirname : Path) (k : ℕ) : List ℕ :=
  (List.range' k (dirname.length - k)).filter fun i => dirname[i]? = some '/'

/-- The prefixes before each separator but one at index `0`, and the path itself. -/
def chain (dirname : Path) : List Path :=
  (separators dirname 1).map dirname.take ++ [dirname]

/-- What the calls of `__mkdir` on a list of paths come to. -/
structure Attempt (σ : Type*) where
  ok : Bool
  calls : List (Path × ℤ)
  env : σ

/-- The calls of `__mkdir` on the paths, in order, up to the first failure. -/
def attempt (sys : Syscalls σ) : List Path → σ → Attempt σ
  | [], env => { ok := true, calls := [], env := env }
  | p :: paths, env =>
    let r := mkdir sys p env
    if r.1 ≠ 0 then { ok := false, calls := [(p, r.1)], env := r.2 }
    else
      let rest := attempt sys paths r.2
      { rest with calls := (p, r.1) :: rest.calls }

/-- The state after the calls of an attempt, with the buffer as it is then. -/
def MakeDirState.after (s : MakeDirState σ) (path : List Char) (a : Attempt σ) :
    MakeDirState σ where
  path := path
  env := a.env
  calls := s.calls ++ a.calls

/-! ## The string in the buffer -/

lemma cString_of_notMem {str : Path} (h : nul ∉ str) (rest : List Char) :
    cString (str ++ nul :: rest) = str := by
  have hstr : ∀ x ∈ str, decide (x ≠ nul) = true := fun x hx =>
    decide_eq_true fun heq => h (heq ▸ hx)
  rw [cString, List.takeWhile_append_of_pos hstr]
  simp

/-- A NUL in the place of a character cuts the string there. -/
lemma cString_cut (h : nul ∉ dirname) {i : ℕ} (hi : i < dirname.length) :
    cString ((dirname ++ [nul]).set i nul) = dirname.take i := by
  have hset : (dirname ++ [nul]).set i nul =
      dirname.take i ++ nul :: (dirname.drop (i + 1) ++ [nul]) := by
    rw [List.set_append_left _ _ hi, List.set_eq_take_append_cons_drop, if_pos hi]
    simp
  rw [hset, cString_of_notMem fun hmem => h (List.mem_of_mem_take hmem)]

/-- Putting the separator back restores the string. -/
lemma restore {i : ℕ} (hsep : dirname[i]? = some '/') :
    ((dirname ++ [nul]).set i nul).set i '/' = dirname ++ [nul] := by
  obtain ⟨hi, hget⟩ := List.getElem?_eq_some_iff.mp hsep
  rw [List.set_set, List.set_append_left _ _ hi, ← hget, List.set_getElem_self]

/-! ## The search for the next separator -/

lemma separators_of_drop_nil {k : ℕ} (h : dirname.drop k = []) : separators dirname k = [] := by
  rw [List.drop_eq_nil_iff] at h
  simp [separators, Nat.sub_eq_zero_of_le h]

lemma separators_of_drop {k : ℕ} {x : Char} {rest : List Char} (h : dirname.drop k = x :: rest) :
    separators dirname k =
      if x = '/' then k :: separators dirname (k + 1) else separators dirname (k + 1) := by
  have hget : dirname[k]? = some x := by
    have hhead := congrArg (·[0]?) h
    simpa using hhead
  obtain ⟨hk, -⟩ := List.getElem?_eq_some_iff.mp hget
  have hlen : dirname.length - k = (dirname.length - (k + 1)) + 1 := by omega
  rw [separators, hlen, List.range'_succ, List.filter_cons]
  simp only [hget, Option.some.injEq, decide_eq_true_eq]
  rfl

/-- **`strchr` finds the next separator**, if there is one. -/
lemma strchrFrom_separators (h : nul ∉ dirname) {k : ℕ} {rest : List Char}
    (hrest : dirname.drop k = rest) :
    strchrFrom (rest ++ [nul]) k '/' = (separators dirname k).head? ∧
      ∀ i l, separators dirname k = i :: l →
        dirname[i]? = some '/' ∧ l = separators dirname (i + 1) := by
  induction rest generalizing k with
  | nil =>
    have hnil := separators_of_drop_nil hrest
    rw [hnil]
    exact ⟨by simp [strchrFrom, nul], fun i l hl => by cases hl⟩
  | cons x rest ih =>
    have hx : x ≠ nul := fun heq => h (heq ▸ List.mem_of_mem_drop (hrest ▸ List.mem_cons_self))
    have hdrop : dirname.drop (k + 1) = rest := by
      rw [← List.tail_drop, hrest, List.tail_cons]
    rw [separators_of_drop hrest, List.cons_append, strchrFrom]
    by_cases hsep : x = '/'
    · rw [if_pos hsep, if_pos hsep]
      refine ⟨rfl, fun i l hl => ?_⟩
      obtain ⟨rfl, rfl⟩ := List.cons.inj hl
      have hhead := congrArg (·[0]?) hrest
      exact ⟨by simpa [hsep] using hhead, rfl⟩
    · rw [if_neg hsep, if_neg hsep, if_neg hx]
      exact ih hdrop

lemma strchr_separators (h : nul ∉ dirname) {k : ℕ} (hk : k ≤ dirname.length) :
    strchr (dirname ++ [nul]) k '/' = (separators dirname k).head? := by
  rw [strchr, List.drop_append_of_le_length hk]
  exact (strchrFrom_separators h rfl).1

/-! ## The loop -/

lemma mkdir_state {s : MakeDirState σ} {p : Path} (hp : cString s.path = p) :
    s.mkdir sys = ((mkdir sys p s.env).1,
      { s with
        env := (mkdir sys p s.env).2
        calls := s.calls ++ [(p, (mkdir sys p s.env).1)] }) := by
  rw [← hp]
  rfl

variable (sys) in
/-- **The loop calls `__mkdir` on the prefixes before the separators.**  It stops with `ptr` at a
separator if a call fails, and otherwise has restored the string. -/
lemma makeDirLoop_eq_attempt (h : nul ∉ dirname) {seps : List ℕ} {k fuel : ℕ}
    {s : MakeDirState σ} (hseps : separators dirname k = seps) (hk : k ≤ dirname.length)
    (hfuel : seps.length ≤ fuel) (hpath : s.path = dirname ++ [nul]) :
    let a := attempt sys (seps.map dirname.take) s.env
    ∃ ptr path, makeDirLoop sys fuel (strchr (dirname ++ [nul]) k '/') s =
        some (ptr, s.after path a) ∧
      ptr.isSome = !a.ok ∧ (a.ok = true → path = dirname ++ [nul]) := by
  rw [strchr_separators h hk, hseps]
  induction seps generalizing k fuel s with
  | nil =>
    refine ⟨none, s.path, ?_, rfl, fun _ => hpath⟩
    cases fuel <;> simp [makeDirLoop, attempt, MakeDirState.after]
  | cons i seps ih =>
    obtain ⟨hsep, hrest⟩ := (strchrFrom_separators h (k := k) rfl).2 i seps hseps
    obtain ⟨hi, -⟩ := List.getElem?_eq_some_iff.mp hsep
    obtain ⟨fuel, rfl⟩ := Nat.exists_eq_succ_of_ne_zero (by simp at hfuel; omega : fuel ≠ 0)
    have hcut : cString { s with path := s.path.set i nul }.path = dirname.take i := by
      rw [hpath]
      exact cString_cut h hi
    simp only [List.head?_cons, makeDirLoop, mkdir_state hcut, List.map_cons, attempt]
    by_cases hret : (mkdir sys (dirname.take i) s.env).1 = 0
    · simp only [hret, ne_eq, not_true_eq_false, if_false]
      have hback : (s.path.set i nul).set i '/' = dirname ++ [nul] := hpath ▸ restore hsep
      rw [hback, strchr_separators h (by omega), ← hrest]
      obtain ⟨ptr, path, hloop, hptr, hok⟩ := ih (k := i + 1) 
        (s := ⟨dirname ++ [nul], (mkdir sys (dirname.take i) s.env).2,
          s.calls ++ [(dirname.take i, 0)]⟩) hrest.symm (by omega) (by simpa using hfuel) rfl
      refine ⟨ptr, path, ?_, hptr, hok⟩
      rw [hloop]
      simp [MakeDirState.after]
    · simp only [hret, ne_eq, not_false_eq_true, if_true]
      exact ⟨some i, _, rfl, rfl, fun hok => by cases hok⟩

/-! ## `MakeDir` -/

lemma strdup_of_notMem (h : nul ∉ dirname) : strdup dirname = dirname ++ [nul] := by
  have hall : ∀ x ∈ dirname, decide (x ≠ nul) = true := fun x hx =>
    decide_eq_true fun heq => h (heq ▸ hx)
  rw [strdup, cString, List.takeWhile_eq_self_iff.mpr hall]

lemma attempt_append_singleton (paths : List Path) (p : Path) (env : σ) :
    attempt sys (paths ++ [p]) env =
      let a := attempt sys paths env
      let r := mkdir sys p a.env
      if a.ok then { ok := r.1 = 0, calls := a.calls ++ [(p, r.1)], env := r.2 } else a := by
  induction paths generalizing env with
  | nil => by_cases hret : (mkdir sys p env).1 = 0 <;> simp [attempt, hret]
  | cons q paths ih =>
    simp only [List.cons_append, attempt, ih]
    by_cases hret : (mkdir sys q env).1 = 0
    · simp only [hret, ne_eq, not_true_eq_false, if_false]
      cases hok : (attempt sys paths (mkdir sys q env).2).ok <;> simp [hok]
    · simp [hret]

/-- **`MakeDir` attempts the chain**, and always ends. -/
lemma makeDir_eq_attempt (hne : dirname ≠ []) (hnul : nul ∉ dirname)
    (hlstat : (sys.lstat dirname env).1 ≠ 0) :
    ∃ path, makeDir sys dirname env =
      let a := attempt sys (chain dirname) (sys.lstat dirname env).2
      some (a.ok, ⟨path, a.env, a.calls⟩) := by
  have hlen := List.length_pos_iff.mpr hne
  have hstr : cString dirname = dirname := List.append_cancel_right (strdup_of_notMem hnul)
  have hfuel : (separators dirname 1).length ≤ (dirname ++ [nul]).length := by
    refine (List.length_filter_le _ _).trans ?_
    simp only [List.length_range', List.length_append]
    omega
  obtain ⟨ptr, path, hloop, hptr, hok⟩ := makeDirLoop_eq_attempt sys hnul rfl
    (by omega : 1 ≤ dirname.length) hfuel
    (s := ⟨dirname ++ [nul], (sys.lstat dirname env).2, []⟩) rfl
  generalize ha : attempt sys ((separators dirname 1).map dirname.take)
    (sys.lstat dirname env).2 = a at hloop hptr hok
  refine ⟨path, ?_⟩
  simp only [makeDir, hstr, if_neg hlstat, strdup_of_notMem hnul, hloop, Option.map_some, hptr,
    chain, attempt_append_singleton, ha]
  cases hv : a.ok with
  | false => simp [hv, MakeDirState.after]
  | true =>
    have hcut : cString path = dirname := by
      rw [hok hv]
      exact cString_of_notMem hnul []
    have hlast : MakeDirState.mkdir sys ⟨path, a.env, a.calls⟩ = _ := mkdir_state hcut
    simp [MakeDirState.after, hlast]

/-! ## What an attempt does -/

variable (sys) in
/-- The calls of an attempt follow the list up to the first failure. -/
lemma attempt_calls (paths : List Path) (env : σ) :
    let a := attempt sys paths env
    a.calls.map Prod.fst <+: paths ∧ (a.ok = true → a.calls.map Prod.fst = paths) ∧
      (a.ok = true ↔ ∀ c ∈ a.calls, c.2 = 0) ∧ ∀ c ∈ a.calls.dropLast, c.2 = 0 := by
  induction paths generalizing env with
  | nil => simp [attempt]
  | cons p paths ih =>
    obtain ⟨hpre, hall, hok, hlast⟩ := ih (mkdir sys p env).2
    simp only [attempt]
    by_cases hret : (mkdir sys p env).1 = 0
    · simp only [hret, ne_eq, not_true_eq_false, if_false, List.map_cons]
      refine ⟨(List.prefix_cons_inj p).mpr hpre, fun h => by rw [hall h], ?_, ?_⟩
      · rw [hok]
        simp
      · cases hcalls : (attempt sys paths (mkdir sys p env).2).calls with
        | nil => simp
        | cons c calls =>
          rw [hcalls] at hlast
          rw [List.dropLast_cons_of_ne_nil (by simp)]
          exact List.forall_mem_cons.mpr ⟨rfl, hlast⟩
    · simp [hret]

/-- The paths of the chain are prefixes of the whole. -/
lemma prefix_of_mem_chain {p : Path} (h : p ∈ chain dirname) : p <+: dirname := by
  rcases List.mem_append.mp h with h | h
  · obtain ⟨i, -, rfl⟩ := List.mem_map.mp h
    exact List.take_prefix i dirname
  · obtain rfl := List.mem_singleton.mp h
    exact List.prefix_rfl

/-! ## File systems -/

/-- What the system calls do to a file system: `Exists` says which paths there are, and `names q p`
that `q` is a name of what `mkdir` makes at `p`, such as `a/` for `a`. -/
structure FileSystem (sys : Syscalls σ) (Exists : σ → Path → Prop) (names : Path → Path → Prop) :
    Prop where
  lstat_env : ∀ p s, (sys.lstat p s).2 = s
  access_env : ∀ p s, (sys.access p s).2 = s
  access_exists : ∀ p s, (sys.access p s).1 = 0 → Exists s p
  mkdir_exists : ∀ p s, (sys.mkdir p s).1 = 0 → Exists (sys.mkdir p s).2 p
  mkdir_keeps : ∀ p s q, Exists s q → Exists (sys.mkdir p s).2 q
  mkdir_only : ∀ p s q, Exists (sys.mkdir p s).2 q →
    Exists s q ∨ (sys.mkdir p s).1 = 0 ∧ names q p

namespace FileSystem

variable {Exists : σ → Path → Prop} {names : Path → Path → Prop} {p q : Path}

lemma exists_of_mkdir (h : FileSystem sys Exists names) (hret : (mkdir sys p env).1 = 0) :
    Exists (mkdir sys p env).2 p := by
  simp only [mkdir, h.access_env] at hret ⊢
  split at hret
  next hfound =>
    rw [if_pos hfound]
    exact h.access_exists p env hfound
  next hmiss =>
    rw [if_neg hmiss]
    exact h.mkdir_exists p env hret

lemma keeps (h : FileSystem sys Exists names) (hq : Exists env q) :
    Exists (mkdir sys p env).2 q := by
  simp only [mkdir, h.access_env]
  split
  · exact hq
  · exact h.mkdir_keeps p env q hq

lemma only (h : FileSystem sys Exists names) (hq : Exists (mkdir sys p env).2 q) :
    Exists env q ∨ (mkdir sys p env).1 = 0 ∧ names q p := by
  simp only [mkdir, h.access_env] at hq ⊢
  split at hq
  · exact .inl hq
  next hmiss =>
    rw [if_neg hmiss]
    exact h.mkdir_only p env q hq

lemma attempt_keeps (h : FileSystem sys Exists names) (paths : List Path) (hq : Exists env q) :
    Exists (attempt sys paths env).env q := by
  induction paths generalizing env with
  | nil => exact hq
  | cons p paths ih =>
    simp only [attempt]
    split
    · exact h.keeps hq
    · exact ih (h.keeps hq)

/-- A path for which a call succeeded exists at the end. -/
lemma attempt_exists (h : FileSystem sys Exists names) (paths : List Path) {c : Path × ℤ}
    (hc : c ∈ (attempt sys paths env).calls) (hret : c.2 = 0) :
    Exists (attempt sys paths env).env c.1 := by
  induction paths generalizing env with
  | nil => simp [attempt] at hc
  | cons p paths ih =>
    simp only [attempt] at hc ⊢
    split at hc
    next hfail =>
      rw [List.mem_singleton.mp hc] at hret
      exact absurd hret hfail
    next hok =>
      rw [if_neg hok]
      rcases List.mem_cons.mp hc with rfl | hc
      · exact h.attempt_keeps paths (h.exists_of_mkdir hret)
      · exact ih hc

/-- What is there at the end was there before, or a call has made it. -/
lemma attempt_only (h : FileSystem sys Exists names) (paths : List Path)
    (hq : Exists (attempt sys paths env).env q) :
    Exists env q ∨ ∃ c ∈ (attempt sys paths env).calls, c.2 = 0 ∧ names q c.1 := by
  induction paths generalizing env with
  | nil => exact .inl hq
  | cons p paths ih =>
    simp only [attempt] at hq ⊢
    split at hq
    next hfail =>
      exact (h.only hq).imp_right fun hnew => absurd hnew.1 hfail
    next hok =>
      rw [if_neg hok]
      rcases ih hq with hq | ⟨c, hc, hret⟩
      · refine (h.only hq).imp_right fun hnew => ?_
        exact ⟨_, List.mem_cons_self, hnew⟩
      · exact .inr ⟨c, List.mem_cons_of_mem _ hc, hret⟩

end FileSystem

lemma dirName_ne_nil (filename : Path) : dirName filename ≠ [] := by
  unfold dirName
  split_ifs with hnil
  · simp
  · split
    · simp
    · simp
    next pos hpos _ =>
      simp only [StringUtils.substr, List.drop_zero, ne_eq, List.take_eq_nil_iff, not_or]
      exact ⟨fun h0 => hpos (by simp_all), hnil⟩

/-- **`MakeDir` makes the chain of ancestors.**  Where `lstat` does not find the path, it calls
`__mkdir` on the prefixes before its separators and then on the path itself, from left to right and
up to the first failure, and returns whether none failed.  In a file system the whole chain exists
after a success; nothing is made but what these calls make; and whenever a call was made, all the
prefixes before it exist.  The argument `DirName` provides is never empty. -/
theorem makeDir_creates_chain (hne : dirname ≠ []) (hnul : nul ∉ dirname)
    (hlstat : (sys.lstat dirname env).1 ≠ 0) :
    (∃ ok s, makeDir sys dirname env = some (ok, s) ∧
      (s.calls.map Prod.fst <+: chain dirname ∧ (∀ c ∈ s.calls, c.1 <+: dirname) ∧
        (∀ c ∈ s.calls.dropLast, c.2 = 0) ∧ (ok = true ↔ ∀ c ∈ s.calls, c.2 = 0) ∧
        (ok = true → s.calls.map Prod.fst = chain dirname)) ∧
      ∀ Exists names, FileSystem sys Exists names →
        (ok = true → ∀ p ∈ chain dirname, Exists s.env p) ∧
        (∀ q, Exists s.env q → Exists env q ∨ ∃ c ∈ s.calls, c.2 = 0 ∧ names q c.1) ∧
        ∀ l c l', s.calls = l ++ c :: l' → ∀ earlier ∈ l, Exists s.env earlier.1) ∧
    ∀ filename, dirName filename ≠ [] := by
  refine ⟨?_, dirName_ne_nil⟩
  obtain ⟨path, hmake⟩ := makeDir_eq_attempt hne hnul hlstat
  obtain ⟨hpre, hall, hok, hlast⟩ := attempt_calls sys (chain dirname) (sys.lstat dirname env).2
  refine ⟨_, _, hmake, ⟨hpre, fun c hc => ?_, hlast, hok, hall⟩, fun Exists names hfs => ?_⟩
  · exact prefix_of_mem_chain (hpre.subset (List.mem_map_of_mem hc))
  · refine ⟨fun h p hp => ?_, fun q hq => ?_, fun l c l' hsplit earlier hearlier => ?_⟩
    · rw [← hall h] at hp
      obtain ⟨c, hc, rfl⟩ := List.mem_map.mp hp
      exact hfs.attempt_exists _ hc (hok.mp h c hc)
    · have honly := hfs.attempt_only _ hq
      rwa [hfs.lstat_env] at honly ⊢
    · dsimp only at hsplit
      refine hfs.attempt_exists _ (c := earlier) ?_ (hlast earlier ?_)
      · rw [hsplit]
        exact List.mem_append_left _ hearlier
      · rw [hsplit, List.dropLast_append_of_ne_nil (by simp)]
        exact List.mem_append_left _ hearlier

/-- A file system that holds the directories of a list, each to be made under its `DirName`. -/
def listed : Syscalls (List Path) where
  lstat p dirs := (if p ∈ dirs then 0 else -1, dirs)
  access p dirs := (if p ∈ dirs then 0 else -1, dirs)
  mkdir p dirs := if p ∈ dirs ∨ dirName p ∉ dirs then (-1, dirs) else (0, p :: dirs)

lemma listed_fileSystem : FileSystem listed (fun dirs p => p ∈ dirs) Eq where
  lstat_env _ _ := rfl
  access_env _ _ := rfl
  access_exists p dirs h := by
    by_contra hp
    simp [listed, hp] at h
  mkdir_exists p dirs h := by
    by_cases hc : p ∈ dirs ∨ dirName p ∉ dirs
    · simp only [listed, if_pos hc] at h
      exact absurd h (by decide)
    · simp only [listed, if_neg hc]
      exact List.mem_cons_self
  mkdir_keeps p dirs q h := by
    simp only [listed]
    split_ifs
    · exact h
    · exact List.mem_cons_of_mem _ h
  mkdir_only p dirs q h := by
    simp only [listed] at h ⊢
    split_ifs at h ⊢ with hc
    · exact .inl h
    · exact (List.mem_cons.mp h).symm.imp_right fun heq => ⟨rfl, heq⟩

/-- `MakeDir("a/b")` in the working directory. -/
theorem makeDir_creates_chain_two :
    ∃ ok s, makeDir listed ['a', '/', 'b'] [['.']] = some (ok, s) ∧ ok = true ∧
      s.calls.map Prod.fst = [['a'], ['a', '/', 'b']] ∧
      ['a'] ∈ s.env ∧ ['a', '/', 'b'] ∈ s.env := by
  obtain ⟨⟨ok, s, hmake, ⟨-, -, -, -, hall⟩, hfs⟩, -⟩ :=
    @makeDir_creates_chain (List Path) listed ['a', '/', 'b'] [['.']] (by decide) (by decide)
      (by decide)
  have hok : (makeDir listed ['a', '/', 'b'] [['.']]).map Prod.fst = some true := by decide
  rw [hmake] at hok
  obtain rfl : ok = true := Option.some.inj hok
  have hchain : chain ['a', '/', 'b'] = [['a'], ['a', '/', 'b']] := by decide
  have hexists := (hfs _ _ listed_fileSystem).1 rfl
  rw [hchain] at hall hexists
  exact ⟨true, s, hmake, rfl, hall rfl, hexists _ (by simp), hexists _ (by simp)⟩

end FileUtils

end CoroutineCpp
