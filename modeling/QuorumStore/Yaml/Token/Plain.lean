import QuorumStore.Yaml.Token.Space

/-!
# Plain Scalars

Scalars without quotes.

A plain scalar runs over several lines as long as they are indented further
than what it belongs to. It ends before a comment, before the mark of a
document, and before a colon with a blank behind it; between brackets it also
ends before a comma or a bracket, and there a colon may not stand directly
before one of those.

## Main definitions

* `Yaml.plainWord`: The characters of a word.
* `Yaml.readPlain`: The plain scalar ahead.
-/

namespace QuorumStore

namespace Yaml

/-- The characters of a flow collection that end a plain scalar. -/
def isFlowMark (c : Char) : Bool :=
  c == ',' || c == '[' || c == ']' || c == '\x7b' || c == '\x7d'

/-- The characters of a word ahead. -/
def plainWord (inFlow : Bool) : List Char → Option (List Char)
  | [] => some []
  | c :: cs =>
    if isGap c || isBreak c then some []
    else if inFlow && c == ':' && cs.head?.any (fun d => isFlowMark d || d == '?') then none
    else if c == ':' && Cursor.wordEnds cs then some []
    else if inFlow && isFlowMark c then some []
    else (plainWord inFlow cs).map (c :: ·)

/-- What is ahead of a plain scalar behind the space `s`: its text, whether a
    new line has been begun behind it, and the place there. -/
def readPlainFrom (inFlow : Bool) (margin : Nat) :
    Nat → Space → Cursor → Option (List Char × Bool × Cursor)
  | 0, s, c => some ([], s.broken, c)
  | room + 1, s, c =>
    if c.atDocumentMark || c.isAt '#' then some ([], s.broken, c)
    else do
      let word ← plainWord inFlow c.rest
      let c := c.skip word.length
      let text := if word.isEmpty then [] else s.text ++ word
      let s := if word.isEmpty then s else {}
      if c.rest.isEmpty || !Cursor.wordEnds c.rest then some (text, s.broken, c)
      else
        let (s, c) ← readSpace margin s c
        if !inFlow && c.column < margin then some (text, s.broken, c)
        else
          let (more, broken, c) ← readPlainFrom inFlow margin room s c
          some (text ++ more, broken, c)

/-- The plain scalar ahead. On its further lines it has to reach the column
    `margin`. -/
def readPlain (inFlow : Bool) (margin : Nat) (c : Cursor) :
    Option (List Char × Bool × Cursor) :=
  readPlainFrom inFlow margin (c.rest.length + 1) {} c

example : (readPlain false 1 { rest := "a b:c\n  d: e".toList }).map (·.1)
    = some "a b:c d".toList := by decide +kernel
example : (readPlain true 0 { rest := "a b, c".toList }).map (·.1) = some "a b".toList := by
  decide +kernel

end Yaml

end QuorumStore
