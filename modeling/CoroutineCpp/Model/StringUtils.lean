import CoroutineCpp.Model.CoExecutor

/-!
# `StringUtils`

The trims of `src/utils.cpp`.  A `std::string` is a list of characters, of any type: only their
equality matters.  Where a search of `std::string` returns `npos`, its model returns `none`.
-/

namespace CoroutineCpp

namespace StringUtils

variable {α : Type*} [DecidableEq α]

/-- `std::string::npos` -/
def npos : ℕ := 2 ^ 64 - 1

/-- `str.find_first_not_of(delim)` -/
def findFirstNotOf : List α → List α → Option ℕ
  | [], _ => none
  | c :: str, delim => if c ∈ delim then (findFirstNotOf str delim).map (· + 1) else some 0

/-- `str.find_last_not_of(delim)` -/
def findLastNotOf : List α → List α → Option ℕ
  | [], _ => none
  | c :: str, delim =>
    match findLastNotOf str delim with
    | some i => some (i + 1)
    | none => if c ∈ delim then none else some 0

/-- `str.substr(pos, n)`, for a `pos` within the string -/
def substr (str : List α) (pos n : ℕ) : List α := (str.drop pos).take n

/-- `RightTrim` -/
def rightTrim (str delim : List α) : List α :=
  match findLastNotOf str delim with
  | none => []
  | some end' => substr str 0 end'

/-- `LeftTrim` -/
def leftTrim (str delim : List α) : List α :=
  match findFirstNotOf str delim with
  | none => []
  | some begin => str.drop begin

/-- `Trim` -/
def trim (str delim : List α) : List α :=
  match findFirstNotOf str delim with
  | none => []
  | some begin =>
    let end' := (findLastNotOf str delim).getD npos
    substr str begin (wrapSub end' begin + 1)

end StringUtils

end CoroutineCpp
