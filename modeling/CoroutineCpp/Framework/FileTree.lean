import Mathlib.Data.List.Basic
import Mathlib.Logic.Function.Basic

/-!
# A tree of directories and files

Directories hold entries under names, and a path is a list of `Piece`s that is followed from some
directory on.  A place in the tree is the list of the names on the way to it from the root, the last
one first.  There are no links, so the places a path passes do not depend on the tree (`trail`); a
path can be followed as far as these are directories (`find_eq_dir_iff`, `walk_of_passable`).

* `mkdir` and `create` make the entry that a path names, a directory or a file, in a directory that
  is there.
* `Grown` — a tree that has the places on some trail as directories, and is else the same.
-/

namespace Framework

/-- What an entry is. -/
inductive Kind
  | dir
  | file
  deriving DecidableEq, Repr

/-- One step of a path. -/
inductive Piece (ν : Type*)
  /-- the directory itself -/
  | here
  /-- its parent; the root is its own -/
  | up
  /-- its entry of that name -/
  | down (n : ν)
  deriving DecidableEq, Repr

namespace Piece

variable {ν : Type*}

/-- Where the step leads. -/
def move (c : Piece ν) (p : List ν) : List ν :=
  match c with
  | .here => p
  | .up => p.tail
  | .down n => n :: p

/-- The places a path passes, from the first to the last. -/
def trail : List ν → List (Piece ν) → List (List ν)
  | p, [] => [p]
  | p, c :: cs => p :: trail (c.move p) cs

/-- The place a path leads to. -/
def dest : List ν → List (Piece ν) → List ν
  | p, [] => p
  | p, c :: cs => dest (c.move p) cs

lemma dest_snoc (p : List ν) (cs : List (Piece ν)) (c : Piece ν) :
    dest p (cs ++ [c]) = c.move (dest p cs) := by
  induction cs generalizing p with
  | nil => rfl
  | cons _ _ ih => exact ih _

lemma trail_snoc (p : List ν) (cs : List (Piece ν)) (c : Piece ν) :
    trail p (cs ++ [c]) = trail p cs ++ [c.move (dest p cs)] := by
  induction cs generalizing p with
  | nil => rfl
  | cons _ _ ih => exact congrArg (p :: ·) (ih _)

lemma dest_mem_trail (p : List ν) (cs : List (Piece ν)) : dest p cs ∈ trail p cs := by
  induction cs generalizing p with
  | nil => exact List.mem_singleton_self p
  | cons _ _ ih => exact List.mem_cons_of_mem _ (ih _)

end Piece

/-- A tree: what there is at each place, with the root a directory and each entry in a directory. -/
structure FileTree (ν : Type*) where
  kind : List ν → Option Kind
  root : kind [] = some .dir
  closed : ∀ n p, kind (n :: p) ≠ none → kind p = some .dir

namespace FileTree

variable {ν : Type*} {t t' t'' : FileTree ν} {p q : List ν} {cs cs' : List (Piece ν)}
  {c : Piece ν} {n : ν} {k : Kind}

/-! ## Following a path -/

/-- Follow the pieces; each is looked up in a directory. -/
def walk (t : FileTree ν) : List ν → List (Piece ν) → Option (List ν)
  | p, [] => some p
  | p, c :: cs => if t.kind p = some .dir then walk t (c.move p) cs else none

/-- What there is at the end of a path. -/
def find (t : FileTree ν) (p : List ν) (cs : List (Piece ν)) : Option Kind :=
  (t.walk p cs).bind t.kind

/-- The path passes directories only. -/
def Passable (t : FileTree ν) (p : List ν) (cs : List (Piece ν)) : Prop :=
  ∀ v ∈ Piece.trail p cs, t.kind v = some .dir

/-- The path passes no file. -/
def Clear (t : FileTree ν) (p : List ν) (cs : List (Piece ν)) : Prop :=
  ∀ v ∈ Piece.trail p cs, t.kind v ≠ some .file

lemma Passable.cons_iff :
    t.Passable p (c :: cs) ↔ t.kind p = some .dir ∧ t.Passable (c.move p) cs := by
  simp [Passable, Piece.trail]

lemma Passable.snoc_iff :
    t.Passable p (cs ++ [c]) ↔
      t.Passable p cs ∧ t.kind (c.move (Piece.dest p cs)) = some .dir := by
  simp [Passable, Piece.trail_snoc, or_imp, forall_and]

lemma Passable.dest (h : t.Passable p cs) : t.kind (Piece.dest p cs) = some .dir :=
  h _ (Piece.dest_mem_trail p cs)

/-- The parent of a directory is one. -/
lemma kind_tail (h : t.kind p = some .dir) : t.kind p.tail = some .dir := by
  cases p with
  | nil => exact h
  | cons n p => exact t.closed n p (by simp [h])

lemma walk_eq_some (h : t.walk p cs = some q) : q = Piece.dest p cs := by
  induction cs generalizing p with
  | nil => exact (Option.some.inj h).symm
  | cons c cs ih =>
    obtain ⟨-, h⟩ := Option.ite_none_right_eq_some.mp h
    exact ih h

lemma walk_of_passable (h : t.Passable p cs) : t.walk p cs = some (Piece.dest p cs) := by
  induction cs generalizing p with
  | nil => rfl
  | cons c cs ih =>
    obtain ⟨hp, hrest⟩ := Passable.cons_iff.mp h
    exact (if_pos hp).trans (ih hrest)

lemma find_cons (h : t.kind p = some .dir) : t.find p (c :: cs) = t.find (c.move p) cs :=
  congrArg (Option.bind · t.kind) (if_pos h)

/-- A path ends at a directory exactly when it passes directories only. -/
lemma find_eq_dir_iff : t.find p cs = some .dir ↔ t.Passable p cs := by
  induction cs generalizing p with
  | nil => simp [find, walk, Passable, Piece.trail]
  | cons c cs ih =>
    rw [Passable.cons_iff, ← ih, find, walk]
    split
    next hp => simp [hp, find]
    next hp => simp [hp]

lemma find_eq_file (h : t.find p cs = some .file) : t.kind (Piece.dest p cs) = some .file := by
  induction cs generalizing p with
  | nil => exact h
  | cons c cs ih =>
    rw [find, walk] at h
    split at h
    · exact ih h
    · cases h

/-- The last piece is looked up in a directory. -/
lemma passable_of_find (h : t.find p (cs ++ [c]) ≠ none) : t.Passable p cs := by
  induction cs generalizing p with
  | nil =>
    intro v hv
    rw [List.mem_singleton.mp hv]
    by_contra hp
    exact h (by simp [find, walk, hp])
  | cons c' cs ih =>
    have hp : t.kind p = some .dir := by
      by_contra hp
      exact h (by simp [find, walk, hp])
    exact Passable.cons_iff.mpr ⟨hp, ih (find_cons hp ▸ h)⟩

/-! ## Making entries -/

/-- A new entry of a directory. -/
def insert [DecidableEq ν] (t : FileTree ν) (k : Kind) (n : ν) (p : List ν)
    (h : t.kind p = some .dir ∧ t.kind (n :: p) = none) : FileTree ν where
  kind := Function.update t.kind (n :: p) (some k)
  root := by rw [Function.update_of_ne (by simp), t.root]
  closed m q hne := by
    have hdir : t.kind q = some .dir := by
      by_cases heq : m :: q = n :: p
      · obtain ⟨-, rfl⟩ := List.cons.inj heq
        exact h.1
      · rw [Function.update_of_ne heq] at hne
        exact t.closed m q hne
    have hold : q ≠ n :: p := by
      rintro rfl
      simp [h.2] at hdir
    rwa [Function.update_of_ne hold]

/-- Make the directory that a path names; `none` where that is not possible. -/
def mkdir [DecidableEq ν] (t : FileTree ν) (p : List ν) (cs : List (Piece ν)) :
    Option (FileTree ν) :=
  match cs.getLast?, t.walk p cs.dropLast with
  | some (.down n), some q =>
    if h : t.kind q = some .dir ∧ t.kind (n :: q) = none then some (t.insert .dir n q h) else none
  | _, _ => none

/-- Open the file that a path names, and make it if it is not there; `none` where that is not
possible. -/
def create [DecidableEq ν] (t : FileTree ν) (p : List ν) (cs : List (Piece ν)) :
    Option (FileTree ν) :=
  match cs.getLast?, t.walk p cs.dropLast with
  | some (.down n), some q =>
    if t.kind (n :: q) = some .file then some t
    else if h : t.kind q = some .dir ∧ t.kind (n :: q) = none then some (t.insert .file n q h)
    else none
  | _, _ => none

variable [DecidableEq ν]

lemma mkdir_snoc (h : t.Passable p cs) (hnew : t.kind (n :: Piece.dest p cs) = none) :
    t.mkdir p (cs ++ [.down n]) = some (t.insert .dir n (Piece.dest p cs) ⟨h.dest, hnew⟩) := by
  have hwalk : t.walk p cs = some (Piece.dest p cs) := walk_of_passable h
  simp [mkdir, hwalk, h.dest, hnew]

lemma create_snoc (h : t.Passable p cs) (hkind : t.kind (n :: Piece.dest p cs) ≠ some .dir) :
    ∃ t', t.create p (cs ++ [.down n]) = some t' ∧
      t'.kind = Function.update t.kind (n :: Piece.dest p cs) (some .file) := by
  have hwalk : t.walk p cs = some (Piece.dest p cs) := walk_of_passable h
  cases hat : t.kind (n :: Piece.dest p cs) with
  | none =>
    exact ⟨t.insert .file n _ ⟨h.dest, hat⟩, by simp [create, hwalk, h.dest, hat], rfl⟩
  | some k =>
    cases k with
    | dir => exact absurd hat hkind
    | file =>
      refine ⟨t, by simp [create, hwalk, hat], ?_⟩
      rw [← hat, Function.update_eq_self]

/-- What can be opened is an entry of a directory, and not a directory itself. -/
lemma exists_of_create (h : t.create p cs' = some t') :
    ∃ cs n, cs' = cs ++ [.down n] ∧ t.Passable p cs ∧
      t.kind (n :: Piece.dest p cs) ≠ some .dir := by
  unfold create at h
  split at h
  next n q hlast hwalk =>
    have hsplit : cs'.dropLast ++ [Piece.down n] = cs' := List.dropLast_append_getLast? _ hlast
    have hq := walk_eq_some hwalk
    subst hq
    have hkind : t.kind (Piece.dest p cs'.dropLast) = some .dir ∧
        t.kind (n :: Piece.dest p cs'.dropLast) ≠ some .dir := by
      split at h
      next hfile => exact ⟨t.closed n _ (by simp [hfile]), by simp [hfile]⟩
      next =>
        split at h
        next hnew => exact ⟨hnew.1, by simp [hnew.2]⟩
        next => cases h
    refine ⟨cs'.dropLast, n, hsplit.symm, find_eq_dir_iff.mp ?_, hkind.2⟩
    simpa [find, hwalk] using hkind.1
  next => cases h

/-- What is there stays what it is. -/
def Keeps (t t' : FileTree ν) : Prop := ∀ v k, t.kind v = some k → t'.kind v = some k

lemma keeps_insert (h : t.kind p = some .dir ∧ t.kind (n :: p) = none) :
    t.Keeps (t.insert k n p h) := by
  intro v k' hv
  have hne : v ≠ n :: p := by
    rintro rfl
    simp [h.2] at hv
  exact (Function.update_of_ne hne _ _).trans hv

lemma keeps_of_mkdir (h : t.mkdir p cs = some t') : t.Keeps t' := by
  unfold mkdir at h
  split at h
  · split at h
    · exact Option.some.inj h ▸ keeps_insert _
    · cases h
  · cases h

lemma keeps_of_create (h : t.create p cs = some t') : t.Keeps t' := by
  unfold create at h
  split at h
  · split at h
    · exact Option.some.inj h ▸ fun _ _ hv => hv
    · split at h
      · exact Option.some.inj h ▸ keeps_insert _
      · cases h
  · cases h

/-! ## Growing a tree -/

/-- The places in the list have become directories, and nothing else has changed. -/
def Grown (t t' : FileTree ν) (vs : List (List ν)) : Prop :=
  ∀ v, t'.kind v = if v ∈ vs then some .dir else t.kind v

lemma Passable.grown (h : t.Passable p cs) : t.Grown t (Piece.trail p cs) := by
  intro v
  split
  next hv => exact h v hv
  next => rfl

lemma Grown.trans {vs vs' : List (List ν)} (h : t.Grown t' vs) (h' : t'.Grown t'' vs')
    (hsub : vs ⊆ vs') : t.Grown t'' vs' := by
  intro v
  rw [h' v]
  split
  next => rfl
  next hv => rw [h v, if_neg fun hmem => hv (hsub hmem)]

lemma Grown.passable (h : t.Grown t' (Piece.trail p cs)) : t'.Passable p cs := fun v hv =>
  (h v).trans (if_pos hv)

lemma Grown.clear {vs : List (List ν)} (h : t.Grown t' vs) (hclear : t.Clear p cs) :
    t'.Clear p cs := by
  intro v hv
  rw [h v]
  split
  · simp
  · exact hclear v hv

/-- A directory is made where a path that passes no file cannot be followed by its last step. -/
lemma exists_mkdir (h : t.Passable p cs) (hclear : t.Clear p (cs ++ [c]))
    (hnot : ¬ t.Passable p (cs ++ [c])) :
    ∃ t', t.mkdir p (cs ++ [c]) = some t' ∧ t.Grown t' (Piece.trail p (cs ++ [c])) := by
  have hplace : t.kind (c.move (Piece.dest p cs)) ≠ some .dir := fun hdir =>
    hnot (Passable.snoc_iff.mpr ⟨h, hdir⟩)
  cases c with
  | here => exact absurd h.dest hplace
  | up => exact absurd (kind_tail h.dest) hplace
  | down n =>
    have hnew : t.kind (n :: Piece.dest p cs) = none := by
      have hfile := hclear (n :: Piece.dest p cs) (by simp [Piece.trail_snoc, Piece.move])
      cases hat : t.kind (n :: Piece.dest p cs) with
      | none => rfl
      | some k =>
        cases k with
        | dir => exact absurd hat hplace
        | file => exact absurd hat hfile
    refine ⟨_, mkdir_snoc h hnew, fun v => ?_⟩
    simp only [insert, Piece.trail_snoc, List.mem_append, List.mem_singleton, Piece.move]
    by_cases hv : v = n :: Piece.dest p cs
    · rw [hv, Function.update_self, if_pos (.inr rfl)]
    · rw [Function.update_of_ne hv]
      split
      next hmem => exact h v (hmem.resolve_right hv)
      next => rfl

end FileTree

/-! ## Paths as strings -/

namespace Piece

/-- The step for one component of a path; none for an empty one. -/
def ofName : List Char → Option (Piece (List Char))
  | [] => none
  | ['.'] => some .here
  | ['.', '.'] => some .up
  | n => some (.down n)

/-- The steps for the components of a path. -/
def pieces (path : List Char) : List (Piece (List Char)) := (path.splitOn '/').filterMap ofName

/-- The same with what a separator at the end asks for: that the path leads to a directory. -/
def steps (path : List Char) : List (Piece (List Char)) :=
  pieces path ++ if path.getLast? = some '/' then [.here] else []

@[simp] lemma pieces_nil : pieces [] = [] := rfl

lemma pieces_append (s r : List Char) : pieces (s ++ '/' :: r) = pieces s ++ pieces r := by
  rw [pieces, List.splitOn_append_cons_self, List.filterMap_append]
  rfl

lemma pieces_of_notMem {s : List Char} (h : '/' ∉ s) : pieces s = (ofName s).toList := by
  rw [pieces, List.splitOn_eq_singleton h]
  cases hs : ofName s <;> simp [hs]

lemma ofName_eq_none {n : List Char} : ofName n = none ↔ n = [] := by
  unfold ofName
  split <;> simp_all

lemma getLast?_ne_of_notMem {s : List Char} (h : '/' ∉ s) : s.getLast? ≠ some '/' := fun hlast =>
  h (List.mem_of_getLast? hlast)

lemma steps_of_notMem {s : List Char} (h : '/' ∉ s) : steps s = (ofName s).toList := by
  rw [steps, if_neg (getLast?_ne_of_notMem h), List.append_nil, pieces_of_notMem h]

/-- What is behind the last separator is the last step. -/
lemma steps_append {s r : List Char} (h : '/' ∉ r) :
    steps (s ++ '/' :: r) = pieces s ++ [(ofName r).getD .here] := by
  cases r with
  | nil => simp [steps, pieces_append, ofName]
  | cons x r =>
    have hlast : (s ++ '/' :: x :: r).getLast? ≠ some '/' := by
      simpa using getLast?_ne_of_notMem h
    rw [steps, if_neg hlast, List.append_nil, pieces_append, pieces_of_notMem h]
    cases hx : ofName (x :: r) with
    | none => exact absurd (ofName_eq_none.mp hx) (List.cons_ne_nil x r)
    | some c => rfl

end Piece

namespace FileTree

variable {t : FileTree (List Char)} {p : List (List Char)} {path : List Char}

lemma passable_steps_iff : t.Passable p (Piece.steps path) ↔ t.Passable p (Piece.pieces path) := by
  unfold Piece.steps
  split
  · rw [Passable.snoc_iff]
    exact ⟨fun h => h.1, fun h => ⟨h, h.dest⟩⟩
  · rw [List.append_nil]

lemma dest_steps : Piece.dest p (Piece.steps path) = Piece.dest p (Piece.pieces path) := by
  unfold Piece.steps
  split
  · exact Piece.dest_snoc p _ _
  · rw [List.append_nil]

end FileTree

end Framework
