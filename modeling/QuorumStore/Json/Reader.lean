import QuorumStore.Json.Number

/-!
# Reading JSON

From a text to a value.

The reader takes one value off the front of a text. It nests to a depth that
the caller gives, so it recurses on the depth and, across the items of an
array or the members of an object, on the length of the text.

There are two degrees of rigour. A checked read refuses numbers that are too
large and escaped surrogates that do not pair up; it is for values that
somebody keeps. A value that will only be skipped is held to the grammar and
no more.

Strings are read by a small automaton, a character at a time: in the middle of
an escape it remembers which, and how many digits are still owed.

## Main definitions

* `Json.skipBlanks`: A text without the blanks at its front.
* `Json.Escape`: Where in an escape a string reader is.
* `Json.readString?`: The rest of a string behind its first quote.
* `Json.readValue?`: The value at the front of a text.
* `Json.parse?`: The value that is the whole of a text.
-/

namespace QuorumStore

namespace Json

/-- The blanks that may stand between tokens. -/
def isSpace (c : Char) : Bool := c == ' ' || c == '\n' || c == '\t' || c == '\r'

/-- A text without the blanks at its front. -/
def skipBlanks (cs : List Char) : List Char := cs.dropWhile isSpace

/-- Where in an escape the reader of a string is. -/
inductive Escape where
  /-- In none. -/
  | plain
  /-- Behind a backslash. -/
  | opened
  /-- Among the digits of a code unit: how many are owed after the next one,
      what the earlier ones come to, and the high surrogate before it. -/
  | hex (owed acc : Nat) (high : Option Nat)
  /-- Behind a high surrogate, which has to be followed by another escape. -/
  | pairSlash (high : Nat)
  /-- Behind the backslash of that escape. -/
  | pairLetter (high : Nat)
  deriving DecidableEq, Repr

namespace Escape

/-- The character of a two-character escape. -/
def letter? (c : Char) : Option Char :=
  if c = '"' ∨ c = '\\' ∨ c = '/' then some c
  else if c = 'b' then some '\x08'
  else if c = 'f' then some '\x0c'
  else if c = 'n' then some '\n'
  else if c = 'r' then some '\r'
  else if c = 't' then some '\t'
  else none

/-- What a complete code unit comes to behind an optional high surrogate. -/
def unit? (checked : Bool) (high : Option Nat) (u : Nat) : Option (Escape × List Char) :=
  if !checked then some (plain, [])
  else match high with
    | some h =>
      if 0xdc00 ≤ u ∧ u < 0xe000 then
        some (plain, [Char.ofNat (0x10000 + (h - 0xd800) * 0x400 + (u - 0xdc00))])
      else none
    | none =>
      if 0xd800 ≤ u ∧ u < 0xdc00 then some (pairSlash u, [])
      else if 0xdc00 ≤ u ∧ u < 0xe000 then none
      else some (plain, [Char.ofNat u])

/-- One more character of a string: where it leads, and what it adds. -/
def step? (checked : Bool) (c : Char) : Escape → Option (Escape × List Char)
  | plain =>
    if c = '\\' then some (opened, [])
    else if c < ' ' then none
    else some (plain, [c])
  | opened =>
    if c = 'u' then some (hex 3 0 none, [])
    else (letter? c).map fun d => (plain, [d])
  | hex owed acc high =>
    match Numeral.digit? 16 c with
    | none => none
    | some d =>
      match owed with
      | 0 => unit? checked high (acc * 16 + d)
      | owed + 1 => some (hex owed (acc * 16 + d) high, [])
  | pairSlash high => if c = '\\' then some (pairLetter high, []) else none
  | pairLetter high => if c = 'u' then some (hex 3 0 (some high), []) else none

end Escape

/-- The characters of a string up to its closing quote, and what follows. -/
def readString? (checked : Bool) (st : Escape) : List Char → Option (List Char × List Char)
  | [] => none
  | c :: cs =>
    if c = '"' ∧ st = .plain then some ([], cs)
    else match st.step? checked c with
      | none => none
      | some (st, out) =>
        match readString? checked st cs with
        | none => none
        | some (more, rest) => some (out ++ more, rest)

/-- A literal name at the front of a text. -/
def readName? (name : List Char) (j : Json) (cs : List Char) : Option (Json × List Char) :=
  if name.isPrefixOf cs then some (j, cs.drop name.length) else none

/-- The value at the front of a text, if it is neither array nor object. -/
def readScalar? (checked : Bool) (cs : List Char) : Option (Json × List Char) :=
  match cs with
  | [] => none
  | '"' :: cs =>
    (readString? checked .plain cs).map fun (s, rest) => (string (String.ofList s), rest)
  | 'n' :: _ => readName? "null".toList null cs
  | 't' :: _ => readName? "true".toList (bool true) cs
  | 'f' :: _ => readName? "false".toList (bool false) cs
  | _ => readNumber? checked cs

/-- The items of an array behind its bracket or a comma. -/
def readItems? (item : List Char → Option (Json × List Char)) :
    Nat → List Char → Option (List Json × List Char)
  | 0, _ => none
  | room + 1, cs =>
    match item (skipBlanks cs) with
    | none => none
    | some (j, cs) =>
      match skipBlanks cs with
      | ']' :: rest => some ([j], rest)
      | ',' :: cs => (readItems? item room cs).map fun (js, rest) => (j :: js, rest)
      | _ => none

/-- An array behind its bracket. -/
def readArray? (item : List Char → Option (Json × List Char)) (cs : List Char) :
    Option (List Json × List Char) :=
  match skipBlanks cs with
  | ']' :: rest => some ([], rest)
  | cs => readItems? item cs.length cs

/-- A member of an object: its key, a colon and its value. -/
def readMember? (checked : Bool) (item : List Char → Option (Json × List Char))
    (cs : List Char) : Option ((String × Json) × List Char) :=
  match skipBlanks cs with
  | '"' :: cs =>
    match readString? checked .plain cs with
    | none => none
    | some (key, cs) =>
      match skipBlanks cs with
      | ':' :: cs => (item (skipBlanks cs)).map fun (j, rest) => ((String.ofList key, j), rest)
      | _ => none
  | _ => none

/-- The members of an object behind its brace or a comma. -/
def readMembers? (checked : Bool) (item : List Char → Option (Json × List Char)) :
    Nat → List Char → Option (List (String × Json) × List Char)
  | 0, _ => none
  | room + 1, cs =>
    match readMember? checked item cs with
    | none => none
    | some (m, cs) =>
      match skipBlanks cs with
      | '}' :: rest => some ([m], rest)
      | ',' :: cs => (readMembers? checked item room cs).map fun (ms, rest) => (m :: ms, rest)
      | _ => none

/-- An object behind its brace. -/
def readObject? (checked : Bool) (item : List Char → Option (Json × List Char))
    (cs : List Char) : Option (List (String × Json) × List Char) :=
  match skipBlanks cs with
  | '}' :: rest => some ([], rest)
  | cs => readMembers? checked item cs.length cs

/-- The value at the front of a text, in which arrays and objects nest at most
    so deep. -/
def readValue? (checked : Bool) : Nat → List Char → Option (Json × List Char)
  | 0, cs => readScalar? checked (skipBlanks cs)
  | depth + 1, cs =>
    match skipBlanks cs with
    | '[' :: cs =>
      (readArray? (readValue? checked depth) cs).map fun (js, rest) => (array js, rest)
    | '{' :: cs =>
      (readObject? checked (readValue? checked depth) cs).map fun (ms, rest) => (object ms, rest)
    | cs => readScalar? checked cs

/-- How deep the arrays and objects of a message may nest. -/
def depthLimit : Nat := 127

/-- The value that is the whole of a text but for blanks. -/
def parse? (cs : List Char) : Option Json :=
  match readValue? true depthLimit cs with
  | some (j, rest) => if (skipBlanks rest).isEmpty then some j else none
  | none => none

example : (parse? " [1, \x7b\"a\" : \"\\ud83d\\ude00\"\x7d ]\n".toList).map text
    = some "[1,\x7b\"a\":\"😀\"\x7d]" := by decide +kernel
example : ["[1,]", "\"\\ud83d\"", "\x7b\"a\":1,\x7d", "1 2", ""].all
    (fun s => (parse? s.toList).isNone) = true := by decide +kernel

end Json

end QuorumStore
