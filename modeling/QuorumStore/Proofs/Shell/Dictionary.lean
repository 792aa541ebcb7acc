import QuorumStore.Shell

/-!
# Dictionaries

What the shell would say if there were nothing behind it but a dictionary.

A dictionary has a value for some keys. It answers the arguments of a line at
once: a value that is put is there until another is put or the key is deleted,
and a key without a value is not found. It knows no replicas, no levels and no
deadlines, so nothing can go wrong with it that is not wrong with the
arguments. What the shell says to a line is held against this.

The answers are given from the arguments, by their shape. How the shell
itself tells its commands apart does not enter into them; `answer_arguments` is
where the two ways of reading a line come together.

## Main definitions

* `Dictionary`: Values by key.
* `Dictionary.answer`: What is said to some arguments, and the dictionary
  behind it.
* `Dictionary.answers`: What is said to line after line.
* `Dictionary.keyOf?`: The key that arguments are about.
* `Shell.arguments`: The arguments of a line.
* `Dictionary.follow`: The answer to a line that has been read.

## Theorems

* `Shell.keyOf?_of_operation`: An operation is about the key of its arguments.
* `Dictionary.answer_arguments`: A line is answered by what it comes to.
-/

namespace QuorumStore

/-- Values by key. -/
def Dictionary : Type := String → Option String

namespace Dictionary

/-- No key has a value. -/
def empty : Dictionary := fun _ => none

/-- A key has this value now, or none, and the others keep theirs. -/
def set (d : Dictionary) (key : String) (value : Option String) : Dictionary :=
  fun k => if k = key then value else d k

theorem set_self (d : Dictionary) (key : String) (value : Option String) :
    d.set key value key = value := if_pos rfl

theorem set_other (d : Dictionary) {key k : String} (value : Option String) (h : k ≠ key) :
    d.set key value k = d k := if_neg h

/-- What is said to the value of a key. -/
def show? : Option String → Shell.Reply
  | some value => .output value
  | none => .output "error: key not found"

/-- What is said to the arguments of a line, and the dictionary behind it. -/
def answer (d : Dictionary) : List String → Shell.Reply × Dictionary
  | [] => (.output "", d)
  | ["get", key] => (show? (d key), d)
  | ["put", key, value] => (.output "ok", d.set key (some value))
  | ["del", key] => (.output "ok", d.set key none)
  | "get" :: _ => (.output "usage: get <key>", d)
  | "put" :: _ => (.output "usage: put <key> <value>", d)
  | "del" :: _ => (.output "usage: del <key>", d)
  | "exit" :: _ => (.exit, d)
  | _ => (.output "unknown command", d)

/-- What is said to the arguments of one line after another. -/
def answers (d : Dictionary) : List (List String) → List Shell.Reply
  | [] => []
  | args :: rest => (d.answer args).1 :: (d.answer args).2.answers rest

/-- The key that arguments are about, if they are fit to be carried out. -/
def keyOf? : List String → Option String
  | ["get", key] => some key
  | ["put", key, _] => some key
  | ["del", key] => some key
  | _ => none

/-- The answer to a line that has been read, and the dictionary behind it. A
    report on replicas is not for a dictionary to give. -/
def follow (d : Dictionary) : Shell.Line → Shell.Reply × Dictionary
  | .blank => (.output "", d)
  | .mistake e => (.output e.message, d)
  | .operation (.get key) => (show? (d key), d)
  | .operation (.put key value) => (.output "ok", d.set key (some value))
  | .operation (.delete key) => (.output "ok", d.set key none)
  | .operation _ => (.output "unknown command", d)
  | .exit => (.exit, d)

end Dictionary

namespace Shell

/-- The arguments of a line. -/
def arguments (line : String) : List String :=
  (tokenize (trimLine line.toList)).map String.ofList

/-- What arguments come to. -/
def readArguments : List String → Line
  | [] => .blank
  | tokens =>
    match Command.parse tokens with
    | .error e => .mistake e
    | .ok (.operation op) => .operation op
    | .ok .exit => .exit

/-- The key that a line is about. -/
def Line.key? : Line → Option String
  | .operation (.get key) => some key
  | .operation (.put key _) => some key
  | .operation (.delete key) => some key
  | _ => none

theorem read_eq (line : String) : read line = readArguments (arguments line) := by
  unfold read readArguments arguments
  cases (tokenize (trimLine line.toList)).map String.ofList <;> rfl

/-- No name stands for a greeting of the replicas. -/
theorem ofName_ne_connect (name : String) (args : List String) :
    Command.ofName name args ≠ .ok (.operation .connect) := by
  unfold Command.ofName
  repeat' split
  all_goals nofun

theorem read_ne_connect (line : String) : read line ≠ .operation .connect := by
  rw [read_eq]
  rcases arguments line with _ | ⟨name, args⟩
  · nofun
  · intro h
    have hparse := ofName_ne_connect name args
    simp only [readArguments, Command.parse] at h
    split at h
    · cases h
    · rename_i heq
      cases h
      exact hparse heq
    · cases h

end Shell

namespace Dictionary

/-- A line is answered by what it comes to, unless it asks for a report, and it
    is about the key of its arguments. -/
theorem answer_arguments (d : Dictionary) {line : String}
    (hstat : Shell.read line ≠ .operation .stat) :
    d.answer (Shell.arguments line) = d.follow (Shell.read line) ∧
      keyOf? (Shell.arguments line) = (Shell.read line).key? := by
  rw [Shell.read_eq] at hstat ⊢
  generalize Shell.arguments line = args at hstat ⊢
  rcases args with _ | ⟨name, args⟩
  · exact ⟨rfl, rfl⟩
  -- The names that are told apart, each with fewer arguments, as many, or more.
  · by_cases hget : name = "get"
    · subst hget
      rcases args with _ | ⟨key, _ | ⟨x, rest⟩⟩ <;> exact ⟨rfl, rfl⟩
    by_cases hput : name = "put"
    · subst hput
      rcases args with _ | ⟨key, _ | ⟨value, _ | ⟨x, rest⟩⟩⟩ <;> exact ⟨rfl, rfl⟩
    by_cases hdel : name = "del"
    · subst hdel
      rcases args with _ | ⟨key, _ | ⟨x, rest⟩⟩ <;> exact ⟨rfl, rfl⟩
    by_cases hexit : name = "exit"
    · subst hexit
      exact ⟨rfl, rfl⟩
    have hstat' : name ≠ "stat" := by
      rintro rfl
      exact hstat rfl
    simp [Shell.readArguments, Shell.Command.parse, Shell.Command.ofName, follow, answer, keyOf?,
      Shell.Line.key?, Shell.UsageError.message, hget, hput, hdel, hexit, hstat']

end Dictionary

end QuorumStore
