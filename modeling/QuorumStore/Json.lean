import QuorumStore.Text.Numeral

/-!
# JSON Values

The values that messages are made of, and their compact written form.

An object keeps its members in order and keeps duplicates, because a reader of
messages refuses a duplicate only where it knows the field. Of numbers only
the naturals below 2^64 have a value here: no field of a message takes any
other, so all that is kept of the rest is that they were numbers.

Writing leaves out every optional blank. Strings escape the two characters
that have to be escaped and the controls, five of which have a letter of their
own; everything else, ASCII or not, stands for itself.

## Main definitions

* `Json`: A value.
* `Json.write`: Its compact written form.
* `Json.Fault`: The two ways in which a text can fail to be a message.
-/

namespace QuorumStore

/-- A JSON value. -/
inductive Json where
  | null
  | bool (b : Bool)
  /-- A natural number below 2^64, written without sign, point or exponent. -/
  | natural (n : Nat)
  /-- Any other number. -/
  | number
  | string (s : String)
  | array (items : List Json)
  | object (members : List (String × Json))
  deriving Repr, Inhabited

namespace Json

/-- Why a text does not give the value that was asked for. -/
inductive Fault where
  /-- It is not JSON. -/
  | malformed
  /-- It is JSON of another shape. -/
  | shape
  deriving DecidableEq, Repr, Inhabited

/-- The least number that a message cannot hold. -/
def naturalLimit : Nat := Nat.pow 2 64

/-- A digit of a control character's code point. -/
def hexDigit (n : Nat) : Char := (Nat.toDigits 16 n).headD '0'

/-- How one character is written inside a string. -/
def escape (c : Char) : List Char :=
  if c = '"' ∨ c = '\\' then ['\\', c]
  else if c = '\x08' then ['\\', 'b']
  else if c = '\x0c' then ['\\', 'f']
  else if c = '\n' then ['\\', 'n']
  else if c = '\r' then ['\\', 'r']
  else if c = '\t' then ['\\', 't']
  else if c < ' ' then
    ['\\', 'u', '0', '0', hexDigit (c.toNat / 16), hexDigit (c.toNat % 16)]
  else [c]

/-- The written form of a string. -/
def writeString (s : String) : List Char := '"' :: (s.toList.flatMap escape ++ ['"'])

mutual

/-- The compact written form of a value. -/
def write : Json → List Char
  | null => "null".toList
  | bool true => "true".toList
  | bool false => "false".toList
  | natural n => Numeral.digits n
  | number => ['0']
  | string s => writeString s
  | array [] => ['[', ']']
  | array (j :: js) => '[' :: (write j ++ writeItems js)
  | object [] => ['{', '}']
  | object ((k, j) :: ms) => '{' :: (writeString k ++ ':' :: (write j ++ writeMembers ms))

/-- The items behind the first, with the bracket that closes them. -/
def writeItems : List Json → List Char
  | [] => [']']
  | j :: js => ',' :: (write j ++ writeItems js)

/-- The members behind the first, with the brace that closes them. -/
def writeMembers : List (String × Json) → List Char
  | [] => ['}']
  | (k, j) :: ms => ',' :: (writeString k ++ ':' :: (write j ++ writeMembers ms))

end

/-- The compact written form as a text. -/
def text (j : Json) : String := String.ofList (write j)

example : text (object [("a\n\x01", array [natural 7, null]), ("b", string "é\"")])
    = "\x7b\"a\\n\\u0001\":[7,null],\"b\":\"é\\\"\"\x7d" := by decide +kernel

end Json

end QuorumStore
