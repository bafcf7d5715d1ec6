import CoroutineCpp.Model.StringUtils
import Mathlib.Data.Int.Notation

/-!
# `FileUtils`

`MakeDir`, `DirName`, `BaseName` and `OpenForWrite` of `src/utils.cpp`.  `MakeDir` works on a copy
of its argument in memory: it puts a NUL where a separator is, passes the buffer to `__mkdir`, and
puts the separator back.  The buffer is a list of characters that holds its terminator; a `char *`
into it is an index, the null pointer is `none`.

What the system answers is a parameter (`Syscalls`).  A call gets the state of the environment and
returns the next one, so any sequence of answers is that of some environment.
-/

namespace CoroutineCpp

/-- A path, as a `std::string`. -/
abbrev Path := List Char

/-- The terminator of a C string. -/
def nul : Char := Char.ofNat 0

/-- The system calls of `MakeDir`: each returns `0` on success and `-1` otherwise. -/
structure Syscalls (σ : Type*) where
  lstat : Path → σ → ℤ × σ
  /-- `access` with `F_OK` -/
  access : Path → σ → ℤ × σ
  /-- `mkdir` with mode `0775` -/
  mkdir : Path → σ → ℤ × σ

/-- The C string that starts at the first character of the buffer. -/
def cString (buf : List Char) : Path := buf.takeWhile (· ≠ nul)

/-- `strdup(str.c_str())` -/
def strdup (str : Path) : List Char := cString str ++ [nul]

/-- The search of `strchr` through the rest of the buffer, which starts at index `ptr`. -/
def strchrFrom : List Char → ℕ → Char → Option ℕ
  | [], _, _ => none
  | x :: rest, ptr, c =>
    if x = c then some ptr else if x = nul then none else strchrFrom rest (ptr + 1) c

/-- `strchr(buf + ptr, c)` -/
def strchr (buf : List Char) (ptr : ℕ) (c : Char) : Option ℕ := strchrFrom (buf.drop ptr) ptr c

namespace FileUtils

variable {σ : Type*}

/-- The static function `__mkdir` -/
def mkdir (sys : Syscalls σ) (dirname : Path) (env : σ) : ℤ × σ :=
  let r := sys.access dirname env
  if r.1 = 0 then (0, r.2) else sys.mkdir dirname r.2

/-- The buffer `path` of `MakeDir`, the environment, and the calls of `__mkdir` so far, each with
its result. -/
structure MakeDirState (σ : Type*) where
  path : List Char
  env : σ
  /-- history -/
  calls : List (Path × ℤ) := []

/-- `__mkdir(path)` -/
def MakeDirState.mkdir (sys : Syscalls σ) (s : MakeDirState σ) : ℤ × MakeDirState σ :=
  let dirname := cString s.path
  let r := FileUtils.mkdir sys dirname s.env
  (r.1, { s with env := r.2, calls := s.calls ++ [(dirname, r.1)] })

/-- The `for` loop of `MakeDir` from `ptr` on, and the value of `ptr` behind it; `none` if it takes
more than `fuel` rounds. -/
def makeDirLoop (sys : Syscalls σ) :
    ℕ → Option ℕ → MakeDirState σ → Option (Option ℕ × MakeDirState σ)
  | _, none, s => some (none, s)
  | 0, some _, _ => none
  | fuel + 1, some ptr, s =>
    let r := MakeDirState.mkdir sys { s with path := s.path.set ptr nul }
    -- the `break` skips the increment of the loop, and leaves the string cut
    if r.1 ≠ 0 then some (some ptr, r.2)
    else
      let path := r.2.path.set ptr '/'
      makeDirLoop sys fuel (strchr path (ptr + 1) '/') { r.2 with path := path }

/-- `MakeDir`; the second component is what it leaves behind.  `none` if the loop does not end
within as many rounds as the buffer is long. -/
def makeDir (sys : Syscalls σ) (dirname : Path) (env : σ) : Option (Bool × MakeDirState σ) :=
  let r := sys.lstat (cString dirname) env
  let path := strdup dirname
  if r.1 = 0 then some (true, { path := path, env := r.2 })
  else
    (makeDirLoop sys path.length (strchr path 1 '/') { path := path, env := r.2 }).map fun r =>
      if r.1.isSome then (false, r.2)
      else
        let last := MakeDirState.mkdir sys r.2
        (last.1 = 0, last.2)

/-- `str.rfind(c)` -/
def rfind : List Char → Char → Option ℕ
  | [], _ => none
  | x :: str, c =>
    match rfind str c with
    | some i => some (i + 1)
    | none => if x = c then some 0 else none

/-- `DirName` -/
def dirName (filename : Path) : Path :=
  if filename = [] then ['.']
  else
    match rfind filename '/' with
    | some 0 => ['/']
    | none => ['.']
    | some pos => StringUtils.substr filename 0 pos

/-- `BaseName` -/
def baseName (filename : Path) : Path :=
  if filename = [] then filename
  else
    match rfind filename '/' with
    | none => filename
    | some pos => filename.drop (pos + 1)

/-- `OpenForWrite`.  `openFile` is `ofs.open(filename, mode)` with the answer of `ofs.is_open()`, so
the mode is in it, and the stream is part of what it works on. -/
def openForWrite (sys : Syscalls σ) (openFile : Path → σ → Bool × σ) (filename : Path) (env : σ) :
    Option (Bool × σ) :=
  let r := openFile filename env
  if r.1 then some r
  else
    -- the result of `MakeDir` is not looked at
    (makeDir sys (dirName filename) r.2).map fun made => openFile filename made.2.env

end FileUtils

end CoroutineCpp
