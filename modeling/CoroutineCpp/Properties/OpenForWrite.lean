import CoroutineCpp.Framework.FileTree
import CoroutineCpp.Properties.MakeDir

/-!
# Opening a file whose directories are missing

`OpenForWrite` of a closed stream in the mode `out`, with `DirName` and `MakeDir`, on a tree of
directories and files without links and access rights (`TreeSystem`).  Each path that `MakeDir`
passes to `__mkdir` has at most one step more than the one before (`Next`, `isChain_chain`), so that
each call makes at most one directory and finds its parent there (`mkdir_grown`).
-/

namespace CoroutineCpp

open Framework

/-! ## A process in a tree -/

/-- The tree and the working directory. -/
structure TreeSystem where
  tree : FileTree (List Char)
  cwd : List (List Char)
  cwd_dir : tree.kind cwd = some .dir

namespace TreeSystem

/-- Where a path starts. -/
def start (s : TreeSystem) (path : Path) : List (List Char) :=
  if path.head? = some '/' then [] else s.cwd

/-- What a path names. -/
def find (s : TreeSystem) (path : Path) : Option Kind :=
  if path = [] then none else s.tree.find (s.start path) (Piece.steps path)

/-- The tree becomes another one that has the working directory. -/
def setTree (s : TreeSystem) (t : FileTree (List Char)) : TreeSystem :=
  if h : t.kind s.cwd = some .dir then { s with tree := t, cwd_dir := h } else s

/-- `mkdir`; a separator at the end does not matter. -/
def mkdir (path : Path) (s : TreeSystem) : ℤ × TreeSystem :=
  match s.tree.mkdir (s.start path) (Piece.pieces path) with
  | some t => (0, s.setTree t)
  | none => (-1, s)

/-- `open` of a closed stream in the mode `out`, so with `O_CREAT`.  A tree does not know what its
files contain, so that truncating one leaves it as it is. -/
def openFile (path : Path) (s : TreeSystem) : Bool × TreeSystem :=
  match s.tree.create (s.start path) (Piece.steps path) with
  | some t => (true, s.setTree t)
  | none => (false, s)

/-- The system calls on a tree. -/
def syscalls : Syscalls TreeSystem where
  lstat path s := (if s.find path = none then -1 else 0, s)
  access path s := (if s.find path = none then -1 else 0, s)
  mkdir := mkdir

variable {s : TreeSystem} {t : FileTree (List Char)} {path prev : Path}
  {cs : List (Piece (List Char))} {n : List Char}

lemma setTree_tree (h : s.tree.Keeps t) : (s.setTree t).tree = t := by
  rw [setTree, dif_pos (h _ _ s.cwd_dir)]

lemma setTree_cwd (s : TreeSystem) (t : FileTree (List Char)) : (s.setTree t).cwd = s.cwd := by
  unfold setTree
  split <;> rfl

/-- A path starts at a directory. -/
lemma passable_nil (s : TreeSystem) (path : Path) : s.tree.Passable (s.start path) [] := by
  intro v hv
  rw [List.mem_singleton.mp hv, start]
  split
  · exact s.tree.root
  · exact s.cwd_dir

/-! ## The calls -/

/-- A path that passes no file can be named exactly when it can be followed. -/
lemma find_eq_none_iff (hpath : path ≠ [])
    (hclear : s.tree.Clear (s.start path) (Piece.pieces path)) :
    s.find path = none ↔ ¬ s.tree.Passable (s.start path) (Piece.pieces path) := by
  rw [find, if_neg hpath, ← FileTree.passable_steps_iff, ← FileTree.find_eq_dir_iff]
  cases hfind : s.tree.find (s.start path) (Piece.steps path) with
  | none => simp
  | some k =>
    cases k with
    | dir => simp
    | file =>
      have hfile := FileTree.find_eq_file hfind
      rw [FileTree.dest_steps] at hfile
      exact absurd hfile (hclear _ (Piece.dest_mem_trail _ _))

/-- The path has at most one step more than the one before. -/
def Next (prev path : Path) : Prop :=
  Piece.pieces path = Piece.pieces prev ∨ ∃ c, Piece.pieces path = Piece.pieces prev ++ [c]

/-- **A call of `__mkdir`** on the next path: the directory is there afterwards. -/
lemma mkdir_grown (hpath : path ≠ []) (hnext : Next prev path)
    (hprev : s.tree.Passable (s.start path) (Piece.pieces prev))
    (hclear : s.tree.Clear (s.start path) (Piece.pieces path)) :
    ∃ s', FileUtils.mkdir syscalls path s = (0, s') ∧ s'.cwd = s.cwd ∧
      s.tree.Grown s'.tree (Piece.trail (s.start path) (Piece.pieces path)) := by
  have hfind := find_eq_none_iff hpath hclear
  by_cases hpass : s.tree.Passable (s.start path) (Piece.pieces path)
  · have hsome : s.find path ≠ none := fun hnone => hfind.mp hnone hpass
    refine ⟨s, ?_, rfl, hpass.grown⟩
    simp [FileUtils.mkdir, syscalls, hsome]
  · rcases hnext with heq | ⟨c, heq⟩
    · exact absurd (heq ▸ hprev) hpass
    rw [heq] at hpass hclear ⊢
    obtain ⟨t, hmkdir, hgrown⟩ := FileTree.exists_mkdir hprev hclear hpass
    refine ⟨s.setTree t, ?_, setTree_cwd s t, ?_⟩
    · have hnone : s.find path = none := hfind.mpr (heq ▸ hpass)
      simp [FileUtils.mkdir, syscalls, hnone, mkdir, heq, hmkdir]
    · rwa [setTree_tree (FileTree.keeps_of_mkdir hmkdir)]

lemma start_congr {s' : TreeSystem} {path' : Path} (hcwd : s'.cwd = s.cwd)
    (hhead : path'.head? = path.head?) : s'.start path' = s.start path := by
  rw [start, start, hcwd, hhead]

lemma Next.trail_subset (h : Next prev path) (p : List (List Char)) :
    Piece.trail p (Piece.pieces prev) ⊆ Piece.trail p (Piece.pieces path) := by
  rcases h with heq | ⟨c, heq⟩
  · rw [heq]
    exact fun _ hv => hv
  · rw [heq, Piece.trail_snoc]
    exact List.subset_append_left _ _

lemma trail_subset_of_isChain {paths : List Path} (h : List.IsChain Next (prev :: paths))
    (p : List (List Char)) :
    Piece.trail p (Piece.pieces prev) ⊆ Piece.trail p (Piece.pieces (paths.getLastD prev)) := by
  induction paths generalizing prev with
  | nil => exact fun _ hv => hv
  | cons q paths ih =>
    obtain ⟨hnext, hrest⟩ := List.isChain_cons_cons.mp h
    rw [List.getLastD_cons]
    exact List.Subset.trans (hnext.trail_subset p) (ih hrest)

/-- **The calls on a chain of paths** make the places on the last one directories. -/
lemma attempt_grown {paths : List Path} (hchain : List.IsChain Next (prev :: paths))
    (hpaths : ∀ q ∈ paths, q ≠ [] ∧ q.head? = path.head?)
    (hprev : s.tree.Passable (s.start path) (Piece.pieces prev))
    (hclear : s.tree.Clear (s.start path) (Piece.pieces (paths.getLastD prev))) :
    let s' := (FileUtils.attempt syscalls paths s).env
    s'.cwd = s.cwd ∧
      s.tree.Grown s'.tree (Piece.trail (s.start path) (Piece.pieces (paths.getLastD prev))) := by
  induction paths generalizing s prev with
  | nil => exact ⟨rfl, hprev.grown⟩
  | cons q paths ih =>
    obtain ⟨hnext, hchain⟩ := List.isChain_cons_cons.mp hchain
    obtain ⟨⟨hne, hhead⟩, hpaths⟩ := List.forall_mem_cons.mp hpaths
    rw [List.getLastD_cons] at hclear ⊢
    have hsub := trail_subset_of_isChain hchain (s.start path)
    have hstart : s.start q = s.start path := start_congr rfl hhead
    obtain ⟨s', hmkdir, hcwd, hgrown⟩ :=
      mkdir_grown hne hnext (hstart ▸ hprev) (hstart ▸ fun v hv => hclear v (hsub hv))
    rw [hstart] at hgrown
    have hstart' : s'.start path = s.start path := start_congr hcwd rfl
    obtain ⟨hcwd', hrest⟩ := ih (s := s') hchain hpaths (hstart' ▸ hgrown.passable)
      (hstart' ▸ hgrown.clear hclear)
    rw [hstart'] at hrest
    simp only [FileUtils.attempt, hmkdir, ne_eq, not_true_eq_false, if_false]
    exact ⟨hcwd'.trans hcwd, hgrown.trans hrest hsub⟩

/-! ## The chain of a path -/

lemma next_of_append {mid : List Char} (h : '/' ∉ mid) : Next prev (prev ++ '/' :: mid) := by
  rw [Next, Piece.pieces_append, Piece.pieces_of_notMem h]
  cases Piece.ofName mid with
  | none => exact .inl (List.append_nil _)
  | some c => exact .inr ⟨c, rfl⟩

lemma next_of_notMem (h : '/' ∉ path) : Next [] path := by
  rw [Next, Piece.pieces_of_notMem h]
  cases Piece.ofName path with
  | none => exact .inl rfl
  | some c => exact .inr ⟨c, rfl⟩

open FileUtils (separators chain)

/-- Before the first separator there is none. -/
lemma ne_separator_of_lt {dirname : Path} {k i m : ℕ} {seps : List ℕ}
    (h : separators dirname k = i :: seps) (hk : k ≤ m) (hm : m < i) :
    dirname[m]? ≠ some '/' := by
  intro hsep
  obtain ⟨hlen, -⟩ := List.getElem?_eq_some_iff.mp hsep
  have hmem : m ∈ separators dirname k := by
    simp only [separators, List.mem_filter, List.mem_range'_1, hsep, decide_true, and_true]
    omega
  have hsorted : (separators dirname k).Pairwise (· < ·) :=
    (List.pairwise_lt_range' 1).filter _
  rw [h] at hmem hsorted
  rcases List.mem_cons.mp hmem with heq | hmem
  · omega
  · have hlt := (List.pairwise_cons.mp hsorted).1 m hmem
    omega

lemma le_of_separators {dirname : Path} {k i : ℕ} {seps : List ℕ}
    (h : separators dirname k = i :: seps) : k ≤ i := by
  have hmem : i ∈ separators dirname k := h ▸ List.mem_cons_self
  simp only [separators, List.mem_filter, List.mem_range'_1] at hmem
  exact hmem.1.1

lemma ne_separator_of_nil {dirname : Path} {k m : ℕ} (h : separators dirname k = [])
    (hk : k ≤ m) : dirname[m]? ≠ some '/' := by
  intro hsep
  obtain ⟨hlen, -⟩ := List.getElem?_eq_some_iff.mp hsep
  have hmem : m ∈ separators dirname k := by
    simp only [separators, List.mem_filter, List.mem_range'_1, hsep, decide_true, and_true]
    omega
  rw [h] at hmem
  cases hmem

lemma eq_take_append {l : List Char} {j : ℕ} {c : Char} (h : l[j]? = some c) :
    l = l.take j ++ c :: l.drop (j + 1) := by
  obtain ⟨hj, rfl⟩ := List.getElem?_eq_some_iff.mp h
  rw [List.getElem_cons_drop, List.take_append_drop]

/-- The next prefix adds what is between two separators. -/
lemma next_take {dirname : Path} {j i : ℕ} (hj : dirname[j]? = some '/') (hji : j < i)
    (hnone : ∀ m, j < m → m < i → dirname[m]? ≠ some '/') :
    Next (dirname.take j) (dirname.take i) := by
  have hat : (dirname.take i)[j]? = some '/' := by rw [List.getElem?_take_of_lt hji, hj]
  have hsplit := eq_take_append hat
  rw [List.take_take, Nat.min_eq_left hji.le] at hsplit
  rw [hsplit]
  refine next_of_append fun hmem => ?_
  obtain ⟨m, hm⟩ := List.mem_iff_getElem?.mp hmem
  obtain ⟨hlt, hm⟩ : j + 1 + m < i ∧ dirname[j + 1 + m]? = some '/' := by
    simpa [List.getElem?_drop, List.getElem?_take] using hm
  exact hnone _ (by omega) hlt hm

lemma next_take_first {dirname : Path} {i : ℕ} (hi : 0 < i)
    (hnone : ∀ m, 1 ≤ m → m < i → dirname[m]? ≠ some '/') : Next [] (dirname.take i) := by
  obtain ⟨i, rfl⟩ := Nat.exists_eq_succ_of_ne_zero hi.ne'
  cases dirname with
  | nil => exact next_of_notMem List.not_mem_nil
  | cons c rest =>
    have hmid : '/' ∉ rest.take i := by
      intro hmem
      obtain ⟨m, hm⟩ := List.mem_iff_getElem?.mp hmem
      obtain ⟨hlt, hm⟩ : m < i ∧ rest[m]? = some '/' := by
        simpa [List.getElem?_take] using hm
      exact hnone (m + 1) (by omega) (by omega) (by simpa using hm)
    by_cases hc : c = '/'
    · rw [hc]
      exact next_of_append hmid
    · refine next_of_notMem ?_
      simpa [Ne.symm hc] using hmid

lemma isChain_separators {dirname : Path} (hnul : nul ∉ dirname) {seps : List ℕ} {k : ℕ}
    (hk : k ≤ dirname.length) (hseps : separators dirname k = seps)
    (hprev : ∀ i, k ≤ i → (∀ m, k ≤ m → m < i → dirname[m]? ≠ some '/') →
      Next prev (dirname.take i)) :
    List.IsChain Next (prev :: (seps.map dirname.take ++ [dirname])) := by
  induction seps generalizing k prev with
  | nil =>
    have hlast := hprev dirname.length hk fun m hm _ => ne_separator_of_nil hseps hm
    rw [List.take_length] at hlast
    exact List.isChain_pair.mpr hlast
  | cons i seps ih =>
    obtain ⟨hsep, hrest⟩ := (FileUtils.strchrFrom_separators hnul (k := k) rfl).2 i seps hseps
    obtain ⟨hi, -⟩ := List.getElem?_eq_some_iff.mp hsep
    have hnext := hprev i (le_of_separators hseps) fun m hk hm => ne_separator_of_lt hseps hk hm
    refine List.isChain_cons_cons.mpr ⟨hnext, ?_⟩
    exact ih hi hrest.symm fun i' hi' hnone => next_take hsep hi' fun m hm => hnone m hm

lemma isChain_chain {dirname : Path} (hnul : nul ∉ dirname) (hne : dirname ≠ []) :
    List.IsChain Next ([] :: chain dirname) :=
  isChain_separators hnul (List.length_pos_iff.mpr hne) rfl fun _ hi hnone =>
    next_take_first hi hnone

lemma of_mem_chain {dirname q : Path} (hne : dirname ≠ []) (hq : q ∈ chain dirname) :
    q ≠ [] ∧ q.head? = dirname.head? := by
  have hq' : q ≠ [] := by
    rcases List.mem_append.mp hq with hq | hq
    · obtain ⟨i, hi, rfl⟩ := List.mem_map.mp hq
      simp only [separators, List.mem_filter, List.mem_range'_1] at hi
      exact fun hnil => (List.take_eq_nil_iff.mp hnil).elim (by omega) hne
    · exact List.mem_singleton.mp hq ▸ hne
  obtain ⟨rest, rfl⟩ := FileUtils.prefix_of_mem_chain hq
  exact ⟨hq', by rw [List.head?_append_of_ne_nil _ hq']⟩

lemma getLastD_chain (dirname : Path) : (chain dirname).getLastD [] = dirname := by
  simp [chain]

/-! ## The two parts of a name -/

open FileUtils (rfind dirName baseName)

lemma rfind_eq_none {str : List Char} {c : Char} (h : rfind str c = none) : c ∉ str := by
  induction str with
  | nil => exact List.not_mem_nil
  | cons x str ih =>
    rw [rfind] at h
    split at h
    · cases h
    next hrest =>
      have hx : c ≠ x := fun heq => by simp [heq] at h
      exact List.not_mem_cons_of_ne_of_not_mem hx (ih hrest)

lemma rfind_eq_some {str : List Char} {c : Char} {i : ℕ} (h : rfind str c = some i) :
    ∃ d r, str = d ++ c :: r ∧ d.length = i ∧ c ∉ r := by
  induction str generalizing i with
  | nil => cases h
  | cons x str ih =>
    rw [rfind] at h
    split at h
    next j hj =>
      obtain rfl := Option.some.inj h
      obtain ⟨d, r, rfl, rfl, hr⟩ := ih hj
      exact ⟨x :: d, r, rfl, rfl, hr⟩
    next hnone =>
      obtain ⟨rfl, hi⟩ := Option.ite_none_right_eq_some.mp h
      exact ⟨[], str, rfl, Option.some.inj hi, rfind_eq_none hnone⟩

/-- A name has no separator, or one behind which there is none. -/
lemma dirName_baseName (f : Path) :
    ('/' ∉ f ∧ dirName f = ['.'] ∧ baseName f = f) ∨
      ∃ d r, f = d ++ '/' :: r ∧ '/' ∉ r ∧ dirName f = (if d = [] then ['/'] else d) ∧
        baseName f = r := by
  by_cases hf : f = []
  · exact .inl (by simp [hf, dirName, baseName])
  cases hpos : rfind f '/' with
  | none => exact .inl ⟨rfind_eq_none hpos, by simp [dirName, hf, hpos], by simp [baseName, hpos]⟩
  | some i =>
    obtain ⟨d, r, rfl, rfl, hr⟩ := rfind_eq_some hpos
    refine .inr ⟨d, r, rfl, hr, ?_, ?_⟩
    · rw [dirName, if_neg hf, hpos]
      cases d with
      | nil => rfl
      | cons c d => simp [StringUtils.substr]
    · simp [baseName, hpos]

lemma nul_notMem_dirName {f : Path} (h : nul ∉ f) : nul ∉ dirName f := by
  rcases dirName_baseName f with ⟨-, hdir, -⟩ | ⟨d, r, rfl, -, hdir, -⟩
  · rw [hdir]
    decide
  · rw [hdir]
    split
    · decide
    · exact fun hmem => h (List.mem_append_left _ hmem)

/-- A working directory `w` in the root, and nothing in it. -/
def emptyDir : TreeSystem where
  tree := {
    kind := fun v => if v = [] ∨ v = [['w']] then some .dir else none
    root := rfl
    closed := by
      intro n p h
      split at h
      next hv =>
        obtain ⟨-, rfl⟩ : n = ['w'] ∧ p = [] := by simpa using hv
        rfl
      next => exact absurd rfl h }
  cwd := [['w']]
  cwd_dir := rfl

/-- A path can be followed to a directory. -/
lemma find_eq_dir_iff (hpath : path ≠ []) :
    s.find path = some .dir ↔ s.tree.Passable (s.start path) (Piece.pieces path) := by
  rw [find, if_neg hpath, FileTree.find_eq_dir_iff, FileTree.passable_steps_iff]

/-- **A name and its two parts.**  In every tree the parts, put together again with a separator,
name what the name did; and what a name leads to is in the directory of its first part. -/
theorem find_dirName_baseName (hf : f ≠ []) (s : TreeSystem) :
    '/' ∉ baseName f ∧ s.find (dirName f ++ '/' :: baseName f) = s.find f ∧
      (s.find f ≠ none → s.find (dirName f) = some .dir) := by
  rcases dirName_baseName f with ⟨hmem, hdir, hbase⟩ | ⟨d, r, rfl, hr, hdir, hbase⟩
  · rw [hdir, hbase]
    have hstart : s.start f = s.cwd := if_neg fun hhead => hmem (List.mem_of_head? hhead)
    refine ⟨hmem, ?_, fun _ => (find_eq_dir_iff (by simp)).mpr ?_⟩
    · obtain ⟨c, hc⟩ := Option.ne_none_iff_exists'.mp (mt Piece.ofName_eq_none.mp hf)
      rw [find, find, if_neg (by simp), if_neg hf, hstart, Piece.steps_append hmem,
        Piece.steps_of_notMem hmem, hc]
      exact FileTree.find_cons s.cwd_dir
    · exact FileTree.Passable.cons_iff.mpr ⟨s.cwd_dir, s.passable_nil ['.']⟩
  · rw [hbase, hdir]
    split
    next hd =>
      subst hd
      refine ⟨hr, ?_, fun _ => (find_eq_dir_iff (by simp)).mpr (s.passable_nil ['/'])⟩
      rw [find, find, if_neg (by simp), if_neg (by simp), Piece.steps_append hr,
        Piece.steps_append hr]
      rfl
    next hd =>
      refine ⟨hr, rfl, fun hfound => (find_eq_dir_iff hd).mpr ?_⟩
      rw [find, if_neg hf, Piece.steps_append hr] at hfound
      have hpass := FileTree.passable_of_find hfound
      rwa [start, List.head?_append_of_ne_nil _ hd] at hpass

/-- `DirName` and `BaseName` of `/w/`. -/
theorem find_dirName_baseName_slash :
    emptyDir.find (dirName ['/', 'w', '/'] ++ '/' :: baseName ['/', 'w', '/']) = some .dir ∧
      emptyDir.find (dirName ['/', 'w', '/']) = some .dir := by
  have hfind : emptyDir.find ['/', 'w', '/'] = some .dir := by decide
  obtain ⟨-, hjoin, hdir⟩ := find_dirName_baseName (f := ['/', 'w', '/']) (by simp) emptyDir
  exact ⟨hjoin.trans hfind, hdir (by simp [hfind])⟩

/-! ## Opening the file -/

variable {f : Path}

/-- The steps of the name end at the entry `n` of the directory that `cs` lead to; no file is in
their way, and the entry is neither a directory nor one that they pass. -/
structure Leads (s : TreeSystem) (f : Path) (cs : List (Piece (List Char))) (n : List Char) :
    Prop where
  steps : Piece.steps f = cs ++ [.down n]
  clear : s.tree.Clear (s.start f) cs
  notMem : n :: Piece.dest (s.start f) cs ∉ Piece.trail (s.start f) cs
  kind : s.tree.kind (n :: Piece.dest (s.start f) cs) ≠ some .dir

lemma Leads.of_passable (hsteps : Piece.steps f = cs ++ [.down n])
    (h : s.tree.Passable (s.start f) cs)
    (hkind : s.tree.kind (n :: Piece.dest (s.start f) cs) ≠ some .dir) : s.Leads f cs n where
  steps := hsteps
  clear v hv := by simp [h v hv]
  notMem hmem := hkind (h _ hmem)
  kind := hkind

/-- What can be opened later on was not blocked before. -/
lemma Leads.of_keeps {s' : TreeSystem} (h : s'.Leads f cs n) (hkeeps : s.tree.Keeps s'.tree)
    (hcwd : s'.cwd = s.cwd) : s.Leads f cs n := by
  have hstart : s'.start f = s.start f := start_congr hcwd rfl
  obtain ⟨hsteps, hclear, hmem, hkind⟩ := h
  rw [hstart] at hclear hmem hkind
  exact ⟨hsteps, fun v hv hfile => hclear v hv (hkeeps v _ hfile), hmem,
    fun hdir => hkind (hkeeps _ _ hdir)⟩

lemma openFile_keeps (f : Path) (s : TreeSystem) :
    s.tree.Keeps (openFile f s).2.tree ∧ (openFile f s).2.cwd = s.cwd := by
  unfold openFile
  split
  next t ht =>
    have hkeeps := FileTree.keeps_of_create ht
    exact ⟨by rwa [setTree_tree hkeeps], setTree_cwd s t⟩
  next => exact ⟨fun _ _ hv => hv, rfl⟩

lemma mkdir_keeps (path : Path) (s : TreeSystem) :
    s.tree.Keeps (FileUtils.mkdir syscalls path s).2.tree ∧
      (FileUtils.mkdir syscalls path s).2.cwd = s.cwd := by
  by_cases hnone : s.find path = none
  · simp only [FileUtils.mkdir, syscalls, hnone, if_true, mkdir]
    cases ht : s.tree.mkdir (s.start path) (Piece.pieces path) with
    | none => exact ⟨fun _ _ hv => hv, rfl⟩
    | some t =>
      have hkeeps := FileTree.keeps_of_mkdir ht
      exact ⟨by simpa [setTree_tree hkeeps] using hkeeps, setTree_cwd s t⟩
  · simp only [FileUtils.mkdir, syscalls, hnone, if_false, if_true]
    exact ⟨fun _ _ hv => hv, trivial⟩

lemma attempt_keeps (paths : List Path) (s : TreeSystem) :
    s.tree.Keeps (FileUtils.attempt syscalls paths s).env.tree ∧
      (FileUtils.attempt syscalls paths s).env.cwd = s.cwd := by
  induction paths generalizing s with
  | nil => exact ⟨fun _ _ hv => hv, rfl⟩
  | cons p paths ih =>
    obtain ⟨hkeeps, hcwd⟩ := mkdir_keeps p s
    simp only [FileUtils.attempt]
    split
    · exact ⟨hkeeps, hcwd⟩
    · obtain ⟨hkeeps', hcwd'⟩ := ih (FileUtils.mkdir syscalls p s).2
      exact ⟨fun v k hv => hkeeps' v k (hkeeps v k hv), hcwd'.trans hcwd⟩

lemma makeDir_keeps {d : Path} (hne : d ≠ []) (hnul : nul ∉ d) (s : TreeSystem) :
    ∃ ok m, FileUtils.makeDir syscalls d s = some (ok, m) ∧ s.tree.Keeps m.env.tree ∧
      m.env.cwd = s.cwd := by
  have hstr : cString d = d := List.takeWhile_eq_self_iff.mpr fun x hx =>
    decide_eq_true fun heq => hnul (heq ▸ hx)
  by_cases hlstat : (syscalls.lstat d s).1 = 0
  · rw [← hstr] at hlstat
    exact ⟨true, _, if_pos hlstat, fun _ _ hv => hv, rfl⟩
  · obtain ⟨path, hmake⟩ := FileUtils.makeDir_eq_attempt hne hnul hlstat
    exact ⟨_, _, hmake, attempt_keeps _ s⟩

lemma leads_of_openFile (h : (openFile f s).1 = true) : ∃ cs n, s.Leads f cs n := by
  unfold openFile at h
  split at h
  next t ht =>
    obtain ⟨cs, n, hsteps, hpass, hkind⟩ := FileTree.exists_of_create ht
    exact ⟨cs, n, .of_passable hsteps hpass hkind⟩
  next => cases h

/-- The file is there, the places on the way are directories, and nothing else has changed. -/
def Opened (s s' : TreeSystem) (f : Path) (cs : List (Piece (List Char))) (n : List Char) : Prop :=
  let p := s.start f
  ∀ v, s'.tree.kind v =
    if v = n :: Piece.dest p cs then some .file
    else if v ∈ Piece.trail p cs then some .dir
    else s.tree.kind v

/-- The first call of `open` is enough where the directories are there. -/
lemma openFile_of_passable (h : s.Leads f cs n) (hpass : s.tree.Passable (s.start f) cs) :
    ∃ s', openFile f s = (true, s') ∧ s.Opened s' f cs n := by
  obtain ⟨t, ht, hkind⟩ := FileTree.create_snoc hpass h.kind
  rw [← h.steps] at ht
  refine ⟨s.setTree t, by simp [openFile, ht], fun v => ?_⟩
  rw [setTree_tree (FileTree.keeps_of_create ht), hkind, Function.update_apply]
  split
  · rfl
  · split
    next hv => exact hpass v hv
    next => rfl

/-- Where the directories are not there, the call fails and changes nothing. -/
lemma openFile_of_not_passable (h : s.Leads f cs n) (hpass : ¬ s.tree.Passable (s.start f) cs) :
    openFile f s = (false, s) := by
  unfold openFile
  split
  next t ht =>
    obtain ⟨cs', n', hsteps, hpass', -⟩ := FileTree.exists_of_create ht
    obtain ⟨rfl, -⟩ := List.append_inj' (h.steps.symm.trans hsteps) rfl
    exact absurd hpass' hpass
  next => rfl

/-- The directory that `DirName` names is the one to which the steps lead. -/
lemma Leads.pieces_dirName (h : s.Leads f cs n) (hcs : cs ≠ []) :
    dirName f ≠ [] ∧ (dirName f).head? = f.head? ∧ Piece.pieces (dirName f) = cs := by
  have hsteps := h.steps
  rcases dirName_baseName f with ⟨hmem, -⟩ | ⟨d, r, rfl, hr, hdir, -⟩
  · rw [Piece.steps_of_notMem hmem] at hsteps
    cases hf : Piece.ofName f with
    | none => simp [hf] at hsteps
    | some c =>
      rw [hf, Option.toList_some, ← List.nil_append [c]] at hsteps
      exact absurd (List.append_inj' hsteps rfl).1.symm hcs
  · rw [Piece.steps_append hr] at hsteps
    obtain ⟨rfl, -⟩ := List.append_inj' hsteps rfl
    have hd : d ≠ [] := fun hd => hcs (by rw [hd, Piece.pieces_nil])
    rw [hdir, if_neg hd]
    exact ⟨hd, (List.head?_append_of_ne_nil _ hd).symm, rfl⟩

/-- `MakeDir` makes the directory. -/
lemma makeDir_grown (hnul : nul ∉ f) (h : s.Leads f cs n)
    (hpass : ¬ s.tree.Passable (s.start f) cs) :
    ∃ ok m, FileUtils.makeDir syscalls (dirName f) s = some (ok, m) ∧
      m.env.cwd = s.cwd ∧ s.tree.Grown m.env.tree (Piece.trail (s.start f) cs) := by
  have hcs : cs ≠ [] := by
    rintro rfl
    exact hpass (s.passable_nil f)
  obtain ⟨hne, hhead, hpieces⟩ := h.pieces_dirName hcs
  have hnul' := nul_notMem_dirName hnul
  have hstart : s.start (dirName f) = s.start f := start_congr rfl hhead
  have hclear := h.clear
  rw [← hpieces, ← hstart] at hpass hclear ⊢
  have hlstat : (syscalls.lstat (dirName f) s).1 ≠ 0 := by
    simp [syscalls, (find_eq_none_iff hne hclear).mpr hpass]
  obtain ⟨path, hmake⟩ := FileUtils.makeDir_eq_attempt hne hnul' hlstat
  have hgrown := attempt_grown (isChain_chain hnul' hne) (fun q hq => of_mem_chain hne hq)
    (s.passable_nil _) (by rwa [getLastD_chain])
  rw [getLastD_chain] at hgrown
  exact ⟨_, _, hmake, hgrown⟩

/-- **The call on a name that leads to an entry.** -/
lemma openForWrite_of_leads (hnul : nul ∉ f) (h : s.Leads f cs n) :
    ∃ s', FileUtils.openForWrite syscalls openFile f s = some (true, s') ∧ s.Opened s' f cs n := by
  by_cases hpass : s.tree.Passable (s.start f) cs
  · obtain ⟨s', hopen, heffect⟩ := openFile_of_passable h hpass
    exact ⟨s', by simp [FileUtils.openForWrite, hopen], heffect⟩
  · obtain ⟨ok, m, hmake, hcwd, hgrown⟩ := makeDir_grown hnul h hpass
    have hstart : m.env.start f = s.start f := start_congr hcwd rfl
    have hpass' : m.env.tree.Passable (m.env.start f) cs := hstart ▸ hgrown.passable
    have hkind : m.env.tree.kind (n :: Piece.dest (m.env.start f) cs) ≠ some .dir := by
      rw [hstart, hgrown _, if_neg h.notMem]
      exact h.kind
    obtain ⟨s', hopen, heffect⟩ := openFile_of_passable (.of_passable h.steps hpass' hkind) hpass'
    refine ⟨s', ?_, fun v => ?_⟩
    · have hfirst := openFile_of_not_passable h hpass
      simp [FileUtils.openForWrite, hfirst, hmake, hopen]
    · have hv := heffect v
      rw [hstart] at hv
      rw [hv, hgrown v]
      split_ifs <;> rfl

/-- Whatever comes of the call, nothing is taken away, and if it succeeds the name leads to an
entry. -/
lemma exists_openForWrite (hnul : nul ∉ f) (s : TreeSystem) :
    ∃ ok s', FileUtils.openForWrite syscalls openFile f s = some (ok, s') ∧
      s.tree.Keeps s'.tree ∧ s'.cwd = s.cwd ∧ (ok = true → ∃ cs n, s.Leads f cs n) := by
  obtain ⟨hkeeps, hcwd⟩ := openFile_keeps f s
  by_cases hfirst : (openFile f s).1 = true
  · exact ⟨_, _, if_pos hfirst, hkeeps, hcwd, fun _ => leads_of_openFile hfirst⟩
  · obtain ⟨ok, m, hmake, hkeeps', hcwd'⟩ :=
      makeDir_keeps (FileUtils.dirName_ne_nil f) (nul_notMem_dirName hnul) (openFile f s).2
    obtain ⟨hkeeps'', hcwd''⟩ := openFile_keeps f m.env
    have hmade : s.tree.Keeps m.env.tree := fun v k hv => hkeeps' v k (hkeeps v k hv)
    refine ⟨(openFile f m.env).1, (openFile f m.env).2, ?_,
      fun v k hv => hkeeps'' v k (hmade v k hv), hcwd''.trans (hcwd'.trans hcwd), fun hopen => ?_⟩
    · simp only [FileUtils.openForWrite, if_neg hfirst, hmake, Option.map_some]
    · obtain ⟨cs, n, hleads⟩ := leads_of_openFile hopen
      exact ⟨cs, n, hleads.of_keeps hmade (hcwd'.trans hcwd)⟩

/-- **`OpenForWrite` makes its way**, with a closed stream in the mode `out`.  The call succeeds
exactly when the name leads to an entry; then the file is there, the directories on the way are
there, whichever were missing, and nothing else is new.  In any case nothing is taken away. -/
theorem openForWrite_makes_way (hnul : nul ∉ f) (s : TreeSystem) :
    ∃ ok s', FileUtils.openForWrite syscalls openFile f s = some (ok, s') ∧
      (ok = true ↔ ∃ cs n, s.Leads f cs n) ∧
      (∀ cs n, s.Leads f cs n → s.Opened s' f cs n) ∧
      s.tree.Keeps s'.tree ∧ s'.cwd = s.cwd := by
  obtain ⟨ok, s', hopen, hkeeps, hcwd, hleads⟩ := exists_openForWrite hnul s
  have hback : ∀ cs n, s.Leads f cs n → ok = true ∧ s.Opened s' f cs n := by
    intro cs n h
    obtain ⟨s'', hopen', heffect⟩ := openForWrite_of_leads hnul h
    obtain ⟨rfl, rfl⟩ := Prod.mk.inj (Option.some.inj (hopen.symm.trans hopen'))
    exact ⟨rfl, heffect⟩
  exact ⟨ok, s', hopen, ⟨hleads, fun ⟨cs, n, h⟩ => (hback cs n h).1⟩,
    fun cs n h => (hback cs n h).2, hkeeps, hcwd⟩

/-- `OpenForWrite("a/../b")` makes the directory `a` before the file. -/
theorem openForWrite_makes_way_two :
    ∃ s', FileUtils.openForWrite syscalls openFile ['a', '/', '.', '.', '/', 'b'] emptyDir =
        some (true, s') ∧
      s'.tree.kind [['a'], ['w']] = some .dir ∧ s'.tree.kind [['b'], ['w']] = some .file := by
  have hleads : emptyDir.Leads ['a', '/', '.', '.', '/', 'b'] [.down ['a'], .up] ['b'] := by
    refine ⟨by decide, ?_, by decide, by decide⟩
    unfold FileTree.Clear
    decide
  obtain ⟨ok, s', hopen, hok, heffect, -⟩ :=
    openForWrite_makes_way (f := ['a', '/', '.', '.', '/', 'b']) (by decide) emptyDir
  obtain rfl := hok.mpr ⟨_, _, hleads⟩
  have hkind := heffect _ _ hleads
  exact ⟨s', hopen, hkind [['a'], ['w']], hkind [['b'], ['w']]⟩

end TreeSystem

end CoroutineCpp
