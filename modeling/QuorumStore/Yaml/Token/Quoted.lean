import QuorumStore.Text.Numeral
import QuorumStore.Yaml.Token.Space

/-!
# Quoted Scalars

Scalars between quotes.

Between single quotes a quote is written twice, and that is all. Between double
quotes a backslash introduces an escape: one of the named ones, a code point in
two, four or eight hexadecimal digits, or a break that shall not count. Lines
are folded either way. The mark of a document may not stand inside.

## Main definitions

* `Yaml.escape?`: The character of an escape.
* `Yaml.readQuoted`: The rest of a quoted scalar behind its first quote.
-/

namespace QuorumStore

namespace Yaml

/-- The escapes that have a name. -/
def namedEscapes : List (Char × Char) :=
  [('0', '\x00'), ('a', '\x07'), ('b', '\x08'), ('t', '\t'), ('\t', '\t'), ('n', '\n'),
   ('v', '\x0b'), ('f', '\x0c'), ('r', '\r'), ('e', '\x1b'), (' ', ' '), ('"', '"'),
   ('/', '/'), ('\\', '\\'), ('N', '\x85'), ('_', '\xa0'), ('L', '\u2028'), ('P', '\u2029')]

/-- How many digits follow a letter that introduces a code point. -/
def codeWidth? (c : Char) : Option Nat :=
  if c = 'x' then some 2
  else if c = 'u' then some 4
  else if c = 'U' then some 8
  else none

/-- The character whose code point is written in so many digits. -/
def codePoint? (width : Nat) (cs : List Char) : Option Char :=
  if cs.length < width then none
  else match Numeral.readDigits? 16 (cs.take width) with
    | some n => if n.isValidChar then some (Char.ofNat n) else none
    | none => none

/-- The character of an escape behind its backslash, and how many characters
    write it. -/
def escape? : List Char → Option (Char × Nat)
  | [] => none
  | e :: cs =>
    match namedEscapes.lookup e with
    | some c => some (c, 1)
    | none =>
      match codeWidth? e with
      | some width => (codePoint? width cs).map fun c => (c, width + 1)
      | none => none

/-- The characters ahead up to a blank, a break or the closing quote; whether
    an escaped break ended them, and the place behind. -/
def quotedWord (quote : Char) : Nat → Cursor → Option (List Char × Bool × Cursor)
  | 0, c => some ([], false, c)
  | room + 1, c =>
    match c.rest with
    | [] => some ([], false, c)
    | ch :: cs =>
      if isGap ch || isBreak ch then some ([], false, c)
      else if ch = quote then
        if quote = '\'' ∧ cs.head? = some '\'' then
          (quotedWord quote room (c.skip 2)).map fun (w, rest) => ('\'' :: w, rest)
        else some ([], false, c)
      else if quote = '"' ∧ ch = '\\' then
        if cs.head?.any isBreak then some ([], true, (c.skip 1).breakLine.2)
        else do
          let (e, width) ← escape? cs
          let (w, rest) ← quotedWord quote room (c.skip (1 + width))
          some (e :: w, rest)
      else (quotedWord quote room (c.skip 1)).map fun (w, rest) => (ch :: w, rest)

/-- What is ahead of a quoted scalar. -/
def readQuotedFrom (quote : Char) : Nat → Cursor → Option (List Char × Cursor)
  | 0, _ => none
  | room + 1, c =>
    if c.atDocumentMark || c.rest.isEmpty then none
    else do
      let (word, joined, c) ← quotedWord quote c.rest.length c
      if c.isAt quote then some (word, c.skip 1)
      else
        let (s, c) ← readSpace 0 { broken := joined } c
        let (more, c) ← readQuotedFrom quote room c
        some (word ++ s.text ++ more, c)

/-- The rest of a quoted scalar behind its first quote. -/
def readQuoted (quote : Char) (c : Cursor) : Option (List Char × Cursor) :=
  readQuotedFrom quote (c.rest.length + 1) c

example : (readQuoted '\'' { rest := "it''s\n \n x'".toList }).map (·.1)
    = some "it's\nx".toList := by decide +kernel
example : (readQuoted '"' { rest := "a\\\n  \\x41 \\u0042\"".toList }).map (·.1)
    = some "aA B".toList := by decide +kernel

end Yaml

end QuorumStore
