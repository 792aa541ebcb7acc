import QuorumStore.Yaml.Token.Block
import QuorumStore.Yaml.Token.Plain
import QuorumStore.Yaml.Token.Property
import QuorumStore.Yaml.Token.Quoted

/-!
# The Tokens of a Text

A text from left to right, with its indentation made explicit.

While it goes through a text the reader keeps the column of the block
collection it is in and the columns of those around it; a token that stands
left of that column ends the collection first. It also remembers, for the
innermost collection and for every flow collection around it, the last token
that may turn out to be a key. When a colon comes the token is a key, and the
token that says so is put in front of it, with the start of a block mapping if
there is none at its column yet. A possible key has to be on the line of its
colon and not too far away; one that stands at the column of its mapping has to
become a key, because it can be nothing else.

## Main definitions

* `Yaml.PossibleKey`: A token that may turn out to be a key.
* `Yaml.Stream`: How far a text has been read, with its tokens so far.
* `Yaml.Stream.fetch?`: One token further.
* `Yaml.tokens?`: The tokens of a text.
-/

namespace QuorumStore

namespace Yaml

/-- A token that may turn out to be a key. -/
structure PossibleKey where
  /-- It can be nothing else. -/
  required : Bool
  /-- How many tokens are before it. -/
  position : Nat
  offset : Nat
  line : Nat
  column : Nat
  deriving Repr

/-- How far a text has been read, with its tokens so far. -/
structure Stream where
  cursor : Cursor
  /-- The tokens, the last one first. -/
  tokens : List Token := []
  /-- How many they are. -/
  count : Nat := 0
  /-- The column of the innermost block collection, if there is one. -/
  indent : Option Nat := none
  /-- Those of the collections around it. -/
  outer : List (Option Nat) := []
  /-- The last token that may turn out to be a key. -/
  key : Option PossibleKey := none
  /-- The same for the collections around a flow collection. -/
  outerKeys : List (Option PossibleKey) := []
  /-- The next token may be a key. -/
  keyAllowed : Bool := true
  deriving Repr

namespace Stream

/-- The reader is in a flow collection. -/
def inFlow (s : Stream) : Bool := !s.outerKeys.isEmpty

/-- One more token. -/
def push (s : Stream) (t : Token) : Stream :=
  { s with tokens := t :: s.tokens, count := s.count + 1 }

/-- Put a token behind the first `position` ones. -/
def insert (s : Stream) (position : Nat) (t : Token) : Stream :=
  let after := s.count - position
  { s with tokens := s.tokens.take after ++ t :: s.tokens.drop after, count := s.count + 1 }

/-- A column lies right of the innermost block collection. -/
def isInside (s : Stream) (column : Nat) : Bool := s.indent.all (decide <| · < column)

/-- Start a block collection at a column, behind the first `position` tokens,
    unless the innermost one is there already. -/
def openBlock (s : Stream) (column position : Nat) (t : Token) : Stream :=
  if s.inFlow || !s.isInside column then s
  else { s.insert position t with indent := some column, outer := s.indent :: s.outer }

/-- End the block collections that are right of a column. -/
def closeFrom (s : Stream) (ends : Option Nat → Bool) : List (Option Nat) → Stream
  | [] => s
  | i :: is =>
    if ends s.indent then
      closeFrom { s.push .blockEnd with indent := i, outer := is } ends is
    else s

/-- End the block collections that are right of a column. -/
def close (s : Stream) (column : Nat) : Stream :=
  if s.inFlow then s else s.closeFrom (·.any (decide <| column < ·)) s.outer

/-- End all block collections. -/
def closeAll (s : Stream) : Stream := if s.inFlow then s else s.closeFrom (·.isSome) s.outer

/-- Give up the last possible key, which must not be required. -/
def dropKey (s : Stream) : Option Stream :=
  if s.key.any (·.required) then none else some { s with key := none }

/-- Remember the token that comes next as a possible key. -/
def saveKey (s : Stream) : Option Stream :=
  if !s.keyAllowed then some s
  else do
    let c := s.cursor
    let required := !s.inFlow && s.indent == some c.column
    let s ← s.dropKey
    some { s with key := some ⟨required, s.count, c.offset, c.line, c.column⟩ }

/-- How many bytes before its colon a key may start. -/
def keyLimit : Nat := 1024

/-- A possible key at this place still is one; none if it is not but has to
    be. -/
def keepKey (c : Cursor) : Option PossibleKey → Option (Option PossibleKey)
  | none => some none
  | some k =>
    if k.line < c.line ∨ k.offset + keyLimit < c.offset then
      if k.required then none else some none
    else some (some k)

/-- Give up the possible keys that are too far away. -/
def dropStale (s : Stream) : Option Stream := do
  some { s with key := ← keepKey s.cursor s.key,
                outerKeys := ← s.outerKeys.mapM (keepKey s.cursor) }

/-- Behind blanks, comments and breaks, at the next token: whether it may be a
    key, and the place. Where a key may stand in a block, tabs may not. -/
def skipToToken (inFlow : Bool) : Nat → Bool → Cursor → Bool × Cursor
  | 0, allowed, c => (allowed, c)
  | room + 1, allowed, c =>
    let c := if c.column = 0 ∧ c.isAt byteOrderMark then c.skip 1 else c
    let c := c.skipWhile fun ch => ch == ' ' || (ch == '\t' && (inFlow || !allowed))
    let c := if c.isAt '#' then c.skipWhile (!isBreak ·) else c
    if c.isAtAny isBreak then skipToToken inFlow room (allowed || !inFlow) c.breakLine.2
    else (allowed, c)

/-- A token of so many characters. -/
def take (s : Stream) (t : Token) (width : Nat) : Stream :=
  { s.push t with cursor := s.cursor.skip width }

/-- A token that ends or starts a document, or a directive: nothing that was
    open before goes on behind it. -/
def fetchMark (s : Stream) (t : Token) : Option Stream := do
  let s ← s.closeAll.dropKey
  some ({ s with keyAllowed := false }.take t 3)

/-- A directive. -/
def fetchDirective (s : Stream) : Option Stream := do
  let s ← s.closeAll.dropKey
  let (t, c) ← readDirective (s.cursor.skip 1)
  some { s.push t with keyAllowed := false, cursor := c }

/-- The start of a flow collection. -/
def fetchFlowStart (s : Stream) (t : Token) : Option Stream := do
  let s ← s.saveKey
  some { s.take t 1 with key := none, outerKeys := s.key :: s.outerKeys, keyAllowed := true }

/-- The end of a flow collection. -/
def fetchFlowEnd (s : Stream) (t : Token) : Option Stream := do
  let s ← s.dropKey
  let s := match s.outerKeys with
    | k :: ks => { s with key := k, outerKeys := ks }
    | [] => s
  some ({ s with keyAllowed := false }.take t 1)

/-- A comma. -/
def fetchFlowEntry (s : Stream) : Option Stream := do
  let s ← s.dropKey
  some ({ s with keyAllowed := true }.take .flowEntry 1)

/-- A dash before an item. -/
def fetchEntry (s : Stream) : Option Stream := do
  if !s.inFlow && !s.keyAllowed then none
  else
    let s ← (s.openBlock s.cursor.column s.count .blockSequence).dropKey
    some ({ s with keyAllowed := true }.take .entry 1)

/-- A question mark before a key. -/
def fetchKey (s : Stream) : Option Stream := do
  if !s.inFlow && !s.keyAllowed then none
  else
    let s ← (s.openBlock s.cursor.column s.count .blockMapping).dropKey
    some ({ s with keyAllowed := !s.inFlow }.take .key 1)

/-- A colon before a value. -/
def fetchValue (s : Stream) : Option Stream :=
  match s.key with
  | some k =>
    let s := (s.insert k.position .key).openBlock k.column k.position .blockMapping
    some ({ s with key := none, keyAllowed := false }.take .value 1)
  | none =>
    if !s.inFlow && !s.keyAllowed then none
    else
      let s := s.openBlock s.cursor.column s.count .blockMapping
      some ({ s with keyAllowed := !s.inFlow }.take .value 1)

/-- A token that may be a key, read off the place it stands at. -/
def fetchWith (s : Stream) (read : Cursor → Option (Token × Cursor)) : Option Stream := do
  let s ← s.saveKey
  let (t, c) ← read s.cursor
  some { s.push t with cursor := c, keyAllowed := false }

/-- An anchor or an alias. -/
def fetchName (s : Stream) (t : String → Token) : Option Stream :=
  s.fetchWith fun c => do
    let (name, c) ← readName (c.skip 1)
    some (t name, c)

/-- A quoted scalar. -/
def fetchQuoted (s : Stream) (quote : Char) : Option Stream :=
  s.fetchWith fun c => do
    let (text, c) ← readQuoted quote (c.skip 1)
    some (.scalar (String.ofList text) .quoted, c)

/-- A plain scalar. A key may follow it on a new line. -/
def fetchPlain (s : Stream) : Option Stream := do
  let s ← s.saveKey
  let margin := match s.indent with
    | some column => column + 1
    | none => 0
  let (text, broken, c) ← readPlain s.inFlow margin s.cursor
  some { s.push (.scalar (String.ofList text) .plain) with cursor := c, keyAllowed := broken }

/-- A block scalar, which is no key. -/
def fetchBlock (s : Stream) (isLiteral : Bool) : Option Stream := do
  let s ← s.dropKey
  let (text, c) ← readBlock isLiteral s.indent (s.cursor.skip 1)
  let t := Token.scalar (String.ofList text) (if isLiteral then .literal else .folded)
  some { s.push t with cursor := c, keyAllowed := true }

/-- A plain scalar may start with this character and those behind it. -/
def startsPlain (inFlow : Bool) (c : Char) (behind : List Char) : Bool :=
  if c == '-' then !behind.head?.any isGap
  else if c == '?' || c == ':' then !inFlow && !Cursor.wordEnds behind
  else !(isGap c || isBreak c || ",[]\x7b\x7d#&*!|>'\"%@`".toList.contains c)

/-- The token that starts with a character. -/
def fetchAt (s : Stream) (c : Char) (behind : List Char) : Option Stream :=
  let alone := Cursor.wordEnds behind
  if s.cursor.column = 0 ∧ c = '%' then s.fetchDirective
  else if s.cursor.atMark Cursor.startMark then s.fetchMark .documentStart
  else if s.cursor.atMark Cursor.endMark then s.fetchMark .documentEnd
  else if c = '[' then s.fetchFlowStart .flowSequence
  else if c = '\x7b' then s.fetchFlowStart .flowMapping
  else if c = ']' then s.fetchFlowEnd .flowSequenceEnd
  else if c = '\x7d' then s.fetchFlowEnd .flowMappingEnd
  else if c = ',' then s.fetchFlowEntry
  else if c = '-' ∧ alone then s.fetchEntry
  else if c = '?' ∧ (s.inFlow ∨ alone) then s.fetchKey
  else if c = ':' ∧ (s.inFlow ∨ alone) then s.fetchValue
  else if c = '*' then s.fetchName .alias
  else if c = '&' then s.fetchName .anchor
  else if c = '!' then s.fetchWith (readTag s.inFlow)
  else if c = '|' ∧ !s.inFlow then s.fetchBlock true
  else if c = '>' ∧ !s.inFlow then s.fetchBlock false
  else if c = '\'' ∨ c = '"' then s.fetchQuoted c
  else if startsPlain s.inFlow c behind then s.fetchPlain
  else none

/-- One token further. Nothing is left where the text ends; whether it does is
    told by the flag. -/
def fetch? (s : Stream) : Option (Bool × Stream) := do
  let (allowed, c) := skipToToken s.inFlow (s.cursor.rest.length + 1) s.keyAllowed s.cursor
  let s ← { s with cursor := c, keyAllowed := allowed }.dropStale
  let s := s.close c.column
  match c.rest with
  | [] => some (true, ← s.closeAll.dropKey)
  | ch :: behind => some (false, ← s.fetchAt ch behind)

/-- All tokens of what is left. -/
def run : Nat → Stream → Option (List Token)
  | 0, _ => none
  | room + 1, s => do
    let (ended, s) ← s.fetch?
    if ended then some s.tokens.reverse else run room s

end Stream

/-- The tokens of a text. -/
def tokens? (text : List Char) : Option (List Token) :=
  if text.all isAllowed then Stream.run (text.length + 1) { cursor := { rest := text } } else none

example : tokens? "a: [b, c: d]\n".toList = some
    [.blockMapping, .key, .scalar "a" .plain, .value, .flowSequence, .scalar "b" .plain,
     .flowEntry, .key, .scalar "c" .plain, .value, .scalar "d" .plain, .flowSequenceEnd,
     .blockEnd] := by decide +kernel
example : tokens? "a: b: c".toList = none := by decide +kernel

/-- A key of two bytes a character may have half as many characters. -/
example : (tokens? (List.replicate 512 'é' ++ [':'])).isSome ∧
    tokens? (List.replicate 513 'é' ++ [':']) = none := by decide +kernel

end Yaml

end QuorumStore
