/-!
# Shell Tokens

How a line of the shell falls into arguments.

A line is split at every single space, so two spaces in a row have an empty
argument between them. A piece that starts with a quote begins a quoted
argument, which runs to the next piece that ends with the same quote and keeps
the spaces in between; a single piece may do both. The quotes are dropped. A
quoted argument that is still open at the end of the line ends there. There is
no way to escape anything.

## Main definitions

* `Shell.splitSpaces`: The pieces between single spaces.
* `Shell.openingQuote?`: The quote a piece starts with, and the rest of it.
* `Shell.collect`: The arguments that pieces make up.
* `Shell.tokenize`: The arguments of a line.
-/

namespace QuorumStore

namespace Shell

/-- The pieces of a text between single spaces; one more than it has
    spaces. -/
def splitSpaces : List Char → List (List Char)
  | [] => [[]]
  | c :: cs =>
    if c = ' ' then [] :: splitSpaces cs
    else match splitSpaces cs with
      | [] => [[c]]
      | piece :: pieces => (c :: piece) :: pieces

/-- The quote a piece starts with, and what is behind it. -/
def openingQuote? : List Char → Option (Char × List Char)
  | c :: cs => if c = '\'' ∨ c = '"' then some (c, cs) else none
  | [] => none

/-- A piece without the quote it ends with; none if it does not. -/
def dropClosing? (q : Char) (piece : List Char) : Option (List Char) :=
  if piece.getLast? = some q then some piece.dropLast else none

/-- The arguments that pieces make up. `pending` is the quoted argument that
    is still open: its quote and its text so far. -/
def collect (pending : Option (Char × List Char)) : List (List Char) → List (List Char)
  | [] =>
    match pending with
    | none => []
    | some (_, text) => [text]
  | piece :: pieces =>
    match pending with
    | none =>
      match openingQuote? piece with
      | none => piece :: collect none pieces
      | some (q, rest) =>
        match dropClosing? q rest with
        | some text => text :: collect none pieces
        | none => collect (some (q, rest)) pieces
    | some (q, text) =>
      match dropClosing? q piece with
      | some last => (text ++ ' ' :: last) :: collect none pieces
      | none => collect (some (q, text ++ ' ' :: piece)) pieces

/-- The arguments of a line. An empty line has none. -/
def tokenize (line : List Char) : List (List Char) :=
  if line.isEmpty then [] else collect none (splitSpaces line)

example : tokenize "put  'a b' \"c".toList = ["put", "", "a b", "c"].map String.toList := by
  decide +kernel
example : tokenize "get 'it\" is' ''".toList = ["get", "it\" is", ""].map String.toList := by
  decide +kernel

end Shell

end QuorumStore
