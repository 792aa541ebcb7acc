import QuorumStore.Text.Utf8

/-!
# Places in a Document

Where in the text of a document its reader is, and which characters matter to
it.

In YAML the column of a word decides what it belongs to, and a key has to be on
the line of its colon and close to it, so the reader keeps count of lines,
columns and bytes while it takes the text apart. A column is as wide as a
character, however many bytes that takes. A line ends with any of five breaks;
a carriage return and a line feed together are one. Three of the breaks stand
for a line feed in the contents of a document, the two of Unicode for
themselves.

## Main definitions

* `Yaml.isGap`, `Yaml.isBreak`, `Yaml.isWord`: The classes of characters.
* `Yaml.isAllowed`: The characters that a document may hold.
* `Yaml.Cursor`: What is left of a text, and where that starts.
* `Yaml.Cursor.skip`: Further along the line.
* `Yaml.Cursor.breakLine`: Over a break, with what it stands for.
-/

namespace QuorumStore

namespace Yaml

/-- A blank inside a line. -/
def isGap (c : Char) : Bool := c == ' ' || c == '\t'

/-- A character that ends a line. -/
def isBreak (c : Char) : Bool :=
  c == '\n' || c == '\r' || c == '\x85' || c == '\u2028' || c == '\u2029'

/-- A character of the names of anchors, handles and directives. -/
def isWord (c : Char) : Bool := c.isAlphanum || c == '_' || c == '-'

/-- A character that a document may hold: no control but tab, line feed,
    carriage return and next line, and no noncharacter of the first plane. -/
def isAllowed (c : Char) : Bool :=
  c == '\t' || c == '\n' || c == '\r' || c == '\x85' || (' ' ≤ c && c ≤ '~')
    || ('\xa0' ≤ c && c ≤ '\ufffd') || decide (0x10000 ≤ c.toNat)

/-- The mark that may stand before a text to tell its encoding. -/
def byteOrderMark : Char := '\ufeff'

/-- What is left of a text, and where that starts. -/
structure Cursor where
  rest : List Char
  /-- How many bytes lie behind. -/
  offset : Nat := 0
  line : Nat := 0
  column : Nat := 0
  deriving Repr, Inhabited

namespace Cursor

/-- How many bytes lie behind so many characters further on. -/
def offsetAfter (c : Cursor) (n : Nat) : Nat := c.offset + Text.byteCount (c.rest.take n)

/-- Further along the line by so many characters. -/
def skip (c : Cursor) (n : Nat) : Cursor :=
  { c with rest := c.rest.drop n, offset := c.offsetAfter n, column := c.column + n }

/-- The run of characters of a class, and the place behind it. The class holds
    no break. -/
def span (c : Cursor) (p : Char → Bool) : List Char × Cursor :=
  let run := c.rest.takeWhile p
  (run, c.skip run.length)

/-- Behind the run of characters of a class. -/
def skipWhile (c : Cursor) (p : Char → Bool) : Cursor := (c.span p).2

/-- The character ahead is this one. -/
def isAt (c : Cursor) (ch : Char) : Bool := c.rest.head? == some ch

/-- The character ahead is of a class. -/
def isAtAny (c : Cursor) (p : Char → Bool) : Bool := c.rest.head?.any p

/-- A word ends before the first of these characters, which is a blank or a
    break or missing. -/
def wordEnds : List Char → Bool
  | [] => true
  | c :: _ => isGap c || isBreak c

/-- A line ends here. -/
def atLineEnd (c : Cursor) : Bool := c.rest.head?.all isBreak

/-- At the start of the next line, behind a break of so many characters. -/
def newLine (c : Cursor) (width : Nat) : Cursor :=
  ⟨c.rest.drop width, c.offsetAfter width, c.line + 1, 0⟩

/-- Over a break, with what it stands for; nothing happens where there is
    none. -/
def breakLine (c : Cursor) : List Char × Cursor :=
  match c.rest with
  | '\r' :: '\n' :: _ => (['\n'], c.newLine 2)
  | ch :: _ =>
    if ch == '\u2028' || ch == '\u2029' then ([ch], c.newLine 1)
    else if isBreak ch then (['\n'], c.newLine 1)
    else ([], c)
  | [] => ([], c)

/-- A line starts here with this mark and nothing that clings to it. -/
def atMark (c : Cursor) (mark : List Char) : Bool :=
  c.column == 0 && mark.isPrefixOf c.rest && wordEnds (c.rest.drop mark.length)

/-- The mark that starts a document. -/
def startMark : List Char := ['-', '-', '-']

/-- The mark that ends a document. -/
def endMark : List Char := ['.', '.', '.']

/-- A document starts or ends here. -/
def atDocumentMark (c : Cursor) : Bool := c.atMark startMark || c.atMark endMark

/-- Behind the blanks and the comment that may follow a token on its line; the
    line has to end there. -/
def finishLine? (c : Cursor) : Option Cursor :=
  let c := c.skipWhile isGap
  let c := if c.isAt '#' then c.skipWhile (!isBreak ·) else c
  if c.atLineEnd then some c.breakLine.2 else none

end Cursor

end Yaml

end QuorumStore
