import QuorumStore.Text.Unseen

/-!
# Quoted Texts

A text between double quotes, as the listings of values inside messages show
it.

Quotes and backslashes take a backslash, four controls have a letter of their
own, and everything else that does not show as itself is written as its code
point in braces. A single quote is not special.

## Main definitions

* `escapeChar`: How one character is written between the quotes.
* `quoted`: The whole text, with its quotes.
-/

namespace QuorumStore

namespace Text

/-- How one character is written between double quotes. -/
def escapeChar (c : Char) : List Char :=
  if c = '\x00' then ['\\', '0']
  else if c = '\t' then ['\\', 't']
  else if c = '\r' then ['\\', 'r']
  else if c = '\n' then ['\\', 'n']
  else if c = '\\' ∨ c = '"' then ['\\', c]
  else if isUnseen c then
    ['\\', 'u', '\x7b'] ++ Nat.toDigits 16 c.toNat ++ ['\x7d']
  else [c]

/-- A text between double quotes. -/
def quoted (s : String) : String :=
  String.ofList ('"' :: s.toList.flatMap escapeChar ++ ['"'])

example : quoted "a\tb\"c\\'\u0301" = "\"a\\tb\\\"c\\\\'\\u\x7b301\x7d\"" := by decide +kernel

end Text

end QuorumStore
