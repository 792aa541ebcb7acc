import QuorumStore.Text.Blank

/-!
# Consistency Levels

How many replicas have to take part before an operation may answer.

A level is named on the command line, in a configuration file and in messages.
The command line is lenient: it ignores case and the blanks around a name. A
file is not: it takes the two spellings of `fileNames` and no other.

## Main definitions

* `Level`: One replica, a majority, or all of them.
* `Level.required`: How many of `n` replicas a level asks for.
* `Level.name`: The canonical name.
* `Level.ofLenientName?`: The level a command line names.
* `Level.ofFileName?`: The level a configuration file names.

## Theorems

* `Level.required_pos`: With at least one replica, a level asks for one.
* `Level.required_le`: A level never asks for more replicas than there are.
-/

namespace QuorumStore

/-- How many replicas an operation waits for. -/
inductive Level where
  | one
  | quorum
  | all
  deriving DecidableEq, Repr, Inhabited

namespace Level

/-- How many of `n` replicas have to answer. -/
def required (l : Level) (n : Nat) : Nat :=
  match l with
  | one => min n 1
  | quorum => n / 2 + 1
  | all => n

/-- The canonical name of a level. -/
def name : Level → String
  | one => "ONE"
  | quorum => "QUORUM"
  | all => "ALL"

/-- The name of a level in a listing of settings. -/
def listing : Level → String
  | one => "One"
  | quorum => "Quorum"
  | all => "All"

/-- The level whose canonical name this is. -/
def ofName? (s : String) : Option Level :=
  if s = "ONE" then some one
  else if s = "QUORUM" then some quorum
  else if s = "ALL" then some all
  else none

/-- The level a command line names, in any case and with blanks around it. -/
def ofLenientName? (s : String) : Option Level :=
  ofName? (String.ofList ((Text.trim s.toList).map Char.toUpper))

/-- The level a configuration file names: in capitals or in small letters. -/
def ofFileName? (s : String) : Option Level :=
  if s = "one" then some one
  else if s = "quorum" then some quorum
  else if s = "all" then some all
  else ofName? s

/-- With a replica to ask, every level asks for one at least. -/
theorem required_pos (l : Level) {n : Nat} (h : 0 < n) : 0 < l.required n := by
  cases l <;> simp only [required] <;> omega

/-- No level asks for more replicas than there are. -/
theorem required_le (l : Level) {n : Nat} (h : 0 < n) : l.required n ≤ n := by
  cases l <;> simp only [required] <;> omega

end Level

end QuorumStore
