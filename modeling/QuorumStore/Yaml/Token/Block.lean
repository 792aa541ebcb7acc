import QuorumStore.Yaml.Cursor

/-!
# Block Scalars

Scalars that are set off by indentation.

A header tells how the lines are joined, what happens to the breaks at the end
and, if it has to, how far the lines are indented; otherwise the first line
that is not blank tells. Literal lines are kept as they are. Folded lines are
joined with a space, unless one of them starts with a blank. Of the breaks
behind the last line one is kept, or none, or all.

## Main definitions

* `Yaml.Chomp`: Which breaks are kept at the end.
* `Yaml.readHeader`: The header ahead.
* `Yaml.readBlock`: The block scalar ahead.
-/

namespace QuorumStore

namespace Yaml

/-- Which breaks are kept at the end. -/
inductive Chomp where
  | none
  | one
  | all
  deriving DecidableEq, Repr

/-- The sign for the breaks at the end. -/
def chompSign? (c : Cursor) : Option Chomp :=
  if c.isAt '+' then some .all else if c.isAt '-' then some .none else Option.none

/-- The sign for the breaks at the end, if there is one. -/
def readChomp (c : Cursor) : Chomp × Cursor :=
  match chompSign? c with
  | some chomp => (chomp, c.skip 1)
  | none => (.one, c)

/-- The digit for the indentation, which is not zero; zero if there is
    none. -/
def readIndent (c : Cursor) : Option (Nat × Cursor) :=
  match c.rest with
  | ch :: _ =>
    if ch.isDigit then (if ch = '0' then none else some (ch.toNat - '0'.toNat, c.skip 1))
    else some (0, c)
  | [] => some (0, c)

/-- The header ahead: sign and digit in either order, and nothing else on the
    line. -/
def readHeader (c : Cursor) : Option (Chomp × Nat × Cursor) := do
  if (chompSign? c).isSome then
    let (chomp, c) := readChomp c
    let (indent, c) ← readIndent c
    some (chomp, indent, ← c.finishLine?)
  else
    let (indent, c) ← readIndent c
    let (chomp, c) := if indent = 0 then (.one, c) else readChomp c
    some (chomp, indent, ← c.finishLine?)

/-- How many of the spaces ahead are indentation: all of them, as long as it
    is not known how far lines are indented. -/
def indentation (indent : Nat) (c : Cursor) : Nat :=
  let spaces := (c.rest.takeWhile (· == ' ')).length
  if indent = 0 then spaces else min spaces (indent - c.column)

/-- The blank lines ahead: what their breaks stand for, and the largest column
    that their spaces reach. No tab may stand where a line is indented. -/
def readBlankLines (indent : Nat) :
    Nat → Nat → Cursor → Option (List Char × Nat × Cursor)
  | 0, reached, c => some ([], reached, c)
  | room + 1, reached, c =>
    let c := c.skip (indentation indent c)
    let reached := max reached c.column
    if c.isAt '\t' && (indent == 0 || c.column < indent) then none
    else if c.isAtAny isBreak then do
      let (b, c) := c.breakLine
      let (more, reached, c) ← readBlankLines indent room reached c
      some (b ++ more, reached, c)
    else some ([], reached, c)

/-- The lines ahead. `first` is the break before them and `more` are those of
    the blank lines after it; `indented` tells that the line before started
    with a blank. -/
def readBlockLines (isLiteral : Bool) (indent : Nat) :
    Nat → List Char → List Char → Bool → Cursor →
      Option (List Char × List Char × List Char × Cursor)
  | 0, first, more, _, c => some ([], first, more, c)
  | room + 1, first, more, indented, c =>
    if c.column = indent ∧ c.rest ≠ [] then do
      let blank := c.isAtAny isGap
      let folds := !isLiteral && first == ['\n'] && !indented && !blank
      let glue := if folds then (if more.isEmpty then [' '] else []) else first
      let (line, c) := c.span (!isBreak ·)
      let (b, c) := c.breakLine
      let (bs, _, c) ← readBlankLines indent (c.rest.length + 1) 0 c
      let (text, first, last, c) ← readBlockLines isLiteral indent room b bs blank c
      some (glue ++ more ++ line ++ text, first, last, c)
    else some ([], first, more, c)

/-- The block scalar ahead, behind the sign that tells whether it is literal.
    `parent` is the column of what it belongs to, if anything. -/
def readBlock (isLiteral : Bool) (parent : Option Nat) (c : Cursor) :
    Option (List Char × Cursor) := do
  let (chomp, increment, c) ← readHeader c
  let least := match parent with
    | some column => column + 1
    | none => 0
  let indent := if increment = 0 then 0 else (parent.getD 0) + increment
  let (bs, reached, c) ← readBlankLines indent (c.rest.length + 1) 0 c
  let indent := if indent = 0 then max 1 (max least reached) else indent
  let (text, first, more, c) ←
    readBlockLines isLiteral indent (c.rest.length + 1) [] bs false c
  some (match chomp with
    | .none => (text, c)
    | .one => (text ++ first, c)
    | .all => (text ++ first ++ more, c))

example : (readBlock true none { rest := "\n  x\n   y\n\n".toList }).map (·.1)
    = some "x\n y\n".toList := by decide +kernel
example : (readBlock false (some 0) { rest := "-\n  x\n  y\nz: 1".toList }).map (·.1)
    = some "x y".toList := by decide +kernel

end Yaml

end QuorumStore
