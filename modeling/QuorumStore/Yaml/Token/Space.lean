import QuorumStore.Yaml.Cursor

/-!
# Folding Lines

What the blanks and breaks between two words of a scalar stand for.

Inside a line blanks stand for themselves. Around a break they do not count:
one break stands for a space, and more than one for all but the first. A break
of Unicode's own is kept even if it is the first.

## Main definitions

* `Yaml.Space`: Blanks and breaks that have been passed.
* `Yaml.Space.text`: What they stand for.
* `Yaml.readSpace`: The blanks and breaks ahead.
-/

namespace QuorumStore

namespace Yaml

/-- Blanks and breaks that have been passed since the last word. -/
structure Space where
  /-- The blanks, as long as there was no break. -/
  gaps : List Char := []
  /-- There was a break, perhaps an escaped one. -/
  broken : Bool := false
  /-- The first break that was not escaped. -/
  first : List Char := []
  /-- The breaks after that. -/
  more : List Char := []
  deriving DecidableEq, Repr, Inhabited

/-- What a space stands for. -/
def Space.text (s : Space) : List Char :=
  if !s.broken then s.gaps
  else if s.first = ['\n'] then (if s.more.isEmpty then [' '] else s.more)
  else s.first ++ s.more

/-- The space after one more break. -/
def Space.addBreak (s : Space) (b : List Char) : Space :=
  if s.broken then { s with more := s.more ++ b } else ⟨[], true, b, []⟩

/-- The blanks and breaks ahead, behind those of `s`. A tab on a new line has
    to stand at or behind the column `margin`. -/
def readSpaceFrom (margin : Nat) : Nat → Space → Cursor → Option (Space × Cursor)
  | 0, s, c => some (s, c)
  | room + 1, s, c =>
    match c.rest with
    | [] => some (s, c)
    | ch :: _ =>
      if isGap ch then
        if !s.broken then readSpaceFrom margin room { s with gaps := s.gaps ++ [ch] } (c.skip 1)
        else if ch = '\t' ∧ c.column < margin then none
        else readSpaceFrom margin room s (c.skip 1)
      else if isBreak ch then
        let (b, c) := c.breakLine
        readSpaceFrom margin room (s.addBreak b) c
      else some (s, c)

/-- The blanks and breaks ahead. -/
def readSpace (margin : Nat) (s : Space) (c : Cursor) : Option (Space × Cursor) :=
  readSpaceFrom margin c.rest.length s c

example : ((readSpace 0 {} ⟨" \t \n \r\n  x".toList, 0, 0, 0⟩).map (·.1.text)) = some ['\n'] := by
  decide +kernel
example : ((readSpace 0 {} ⟨" \tx".toList, 0, 0, 0⟩).map (·.1.text)) = some [' ', '\t'] := by
  decide +kernel

end Yaml

end QuorumStore
