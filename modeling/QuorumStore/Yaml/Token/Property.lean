import QuorumStore.Text.Numeral
import QuorumStore.Text.Utf8
import QuorumStore.Yaml.Cursor
import QuorumStore.Yaml.Token

/-!
# Properties and Directives

The tokens that say something about others: anchors and aliases, tags, and the
directives before a document.

A tag is a handle and a suffix. A handle is a mark of its own, or two marks
around a word; a tag without one belongs to the handle of a single mark, except
for the mark that stands alone and is a tag itself. In angle brackets a tag has
no handle at all. A suffix may hold escaped bytes, which have to be laid out
like UTF-8; it ends at a byte of zero.

## Main definitions

* `Yaml.readName`: The name of an anchor or an alias.
* `Yaml.readUri`: The characters of a tag.
* `Yaml.readTag`: The tag ahead.
* `Yaml.readDirective`: The directive ahead.
-/

namespace QuorumStore

namespace Yaml

/-- What may stand behind the name of an anchor besides a blank. -/
def endsName (c : Char) : Bool := "?:,]\x7d%@`".toList.contains c

/-- The name of an anchor or an alias behind its mark. -/
def readName (c : Cursor) : Option (String × Cursor) :=
  let (name, c) := c.span isWord
  if name.isEmpty then none
  else if Cursor.wordEnds c.rest || c.isAtAny endsName then some (String.ofList name, c)
  else none

/-- A byte of a tag escaped by a percent sign and two digits. -/
def escapedByte? : List Char → Option Nat
  | '%' :: a :: b :: _ => Numeral.readDigits? 16 [a, b]
  | _ => none

/-- How many bytes follow the first of a character. -/
def trailing? (b : Nat) : Option Nat :=
  if b < 0x80 then some 0
  else if b / 0x20 = 6 then some 1
  else if b / 0x10 = 14 then some 2
  else if b / 0x08 = 30 then some 3
  else none

/-- The escaped bytes ahead that continue a character. -/
def readTrailing : Nat → Cursor → Option (Tag × Cursor)
  | 0, c => some ([], c)
  | n + 1, c => do
    let b ← escapedByte? c.rest
    if b / 0x40 ≠ 2 then none
    else
      let (bs, c) ← readTrailing n (c.skip 3)
      some (UInt8.ofNat b :: bs, c)

/-- The escaped character ahead. -/
def readEscaped (c : Cursor) : Option (Tag × Cursor) := do
  let b ← escapedByte? c.rest
  let (bs, c) ← readTrailing (← trailing? b) (c.skip 3)
  some (UInt8.ofNat b :: bs, c)

/-- A character that may stand in a tag. Commas and brackets may only where
    something else tells where the tag ends. -/
def isUriChar (enclosed : Bool) (c : Char) : Bool :=
  isWord c || ";/?:@&=+$.%!~*'()".toList.contains c || (enclosed && ",[]".toList.contains c)

/-- The characters of a tag ahead, as bytes. -/
def readUriFrom (enclosed : Bool) : Nat → Cursor → Option (Tag × Cursor)
  | 0, c => some ([], c)
  | room + 1, c =>
    match c.rest with
    | [] => some ([], c)
    | ch :: _ =>
      if !isUriChar enclosed ch then some ([], c)
      else do
        let (bs, c) ← if ch = '%' then readEscaped c
          else some ([UInt8.ofNat ch.toNat], c.skip 1)
        let (more, c) ← readUriFrom enclosed room c
        some (bs ++ more, c)

/-- The characters of a tag ahead, of which there has to be one. -/
def readUri (enclosed : Bool) (c : Cursor) : Option (Tag × Cursor) := do
  let (bs, c') ← readUriFrom enclosed c.rest.length c
  if c'.offset = c.offset then none else some (bs.takeWhile (· != 0), c')

/-- The handle ahead: a mark, a word and perhaps another mark. -/
def readHandle (c : Cursor) : Option (List Char × Cursor) :=
  if !c.isAt '!' then none
  else
    let (word, c) := (c.skip 1).span isWord
    if c.isAt '!' then some ('!' :: word ++ ['!'], c.skip 1) else some ('!' :: word, c)

/-- A handle is one by itself: it ends with a mark behind the first. -/
def isClosed (handle : List Char) : Bool := 1 < handle.length && handle.getLast? == some '!'

/-- The tag ahead without what has to follow it. -/
def readTagBody (c : Cursor) : Option (Token × Cursor) :=
  match c.rest with
  | '!' :: '<' :: _ => do
    let (uri, c) ← readUri true (c.skip 2)
    if c.isAt '>' then some (.tag "" uri, c.skip 1) else none
  | _ => do
    let (handle, c) ← readHandle c
    if isClosed handle then
      let (suffix, c) ← readUri false c
      some (.tag (String.ofList handle) suffix, c)
    else
      -- The word behind the mark was the start of the suffix.
      let (more, c) ← readUriFrom false c.rest.length c
      let suffix := (handle.tail.map (UInt8.ofNat ·.toNat) ++ more).takeWhile (· != 0)
      if suffix.isEmpty then some (.tag "" (Text.encode "!"), c) else some (.tag "!" suffix, c)

/-- The tag ahead, which a blank has to follow, or a comma in a flow
    collection. -/
def readTag (inFlow : Bool) (c : Cursor) : Option (Token × Cursor) := do
  let (t, c) ← readTagBody c
  if Cursor.wordEnds c.rest || (inFlow && c.isAt ',') then some (t, c) else none

/-- A part of a version: at most nine digits. -/
def readVersionPart (c : Cursor) : Option (Nat × Cursor) :=
  let (run, c) := c.span Char.isDigit
  if 9 < run.length then none else (Numeral.readDigits? 10 run).map fun n => (n, c)

/-- The value of a version directive. -/
def readVersion (c : Cursor) : Option (Token × Cursor) := do
  let (major, c) ← readVersionPart (c.skipWhile isGap)
  if !c.isAt '.' then none
  else
    let (minor, c) ← readVersionPart (c.skip 1)
    some (.version major minor, c)

/-- The value of a tag directive. Its handle has to be closed or a single
    mark. -/
def readTagHandle (c : Cursor) : Option (Token × Cursor) := do
  let (handle, c) ← readHandle (c.skipWhile isGap)
  if !(isClosed handle || handle == ['!']) || !c.isAtAny isGap then none
  else
    let (start, c) ← readUri true (c.skipWhile isGap)
    if Cursor.wordEnds c.rest then some (.tagHandle (String.ofList handle) start, c) else none

/-- The directive ahead behind its percent sign, with its line. -/
def readDirective (c : Cursor) : Option (Token × Cursor) := do
  let (name, c) := c.span isWord
  if !Cursor.wordEnds c.rest then none
  else
    let (t, c) ← if name = "YAML".toList then readVersion c
      else if name = "TAG".toList then readTagHandle c
      else none
    some (t, ← c.finishLine?)

end Yaml

end QuorumStore
