import QuorumStore.Text.Numeral
import QuorumStore.Text.Utf8
import QuorumStore.Yaml.Node.Grammar
import QuorumStore.Yaml.Token.Stream

/-!
# Shapes of YAML Nodes

What a node is good for, given what is asked of it.

A node has no type of its own. Any scalar will do where a text is wanted,
however it is written. A number has to be plain, or a literal scalar that is
tagged as a number. It is written in decimal digits without a zero in front, or
in another base behind its mark, and may have a plus sign. A name out of a list
is a scalar of that text; or the name is the tag, and there is nothing else. The
mark that stands alone as a tag is such a name, so behind it no name is chosen
by a text. A scalar that is not there passes for an empty sequence and an empty mapping.

## Main definitions

* `Yaml.parse?`: The document that a text writes.
* `Yaml.natural?`: The number that a text writes.
* `Yaml.Document.string?`, `Yaml.Document.natural?`, `Yaml.Document.choice?`,
  `Yaml.Document.items?`, `Yaml.Document.members?`: A node as what is wanted.
-/

namespace QuorumStore

namespace Yaml

/-- The document that a text writes. -/
def parse? (text : String) : Option Document := (tokens? text.toList).bind document?

/-- The mark of a base and the base. -/
def baseMarks : List (Char × Nat) := [('x', 16), ('o', 8), ('b', 2)]

/-- The number that a text writes: in another base behind its mark, or in
    decimal digits without a zero in front. -/
def unsigned? (cs : List Char) : Option Nat :=
  match cs with
  | '0' :: c :: digits =>
    match baseMarks.lookup c with
    | some base => Numeral.readDigits? base digits
    | none => none
  | cs => Numeral.readDigits? 10 cs

/-- The number that a text writes, perhaps behind a plus sign. -/
def natural? (text : String) : Option Nat :=
  match text.toList with
  | '+' :: cs => unsigned? cs
  | cs => unsigned? cs

example : ["0", "+7000", "0x1B58", "0o17", "0b11"].map natural?
    = [some 0, some 7000, some 7000, some 15, some 3] := by decide +kernel
example : ["", "+", "007", "7_000", "-1", "0x", "++1", "1.0"].all fun s => (natural? s).isNone := by
  decide +kernel

/-- The tag of a number. -/
def numberTag : Tag := Text.encode "tag:yaml.org,2002:int"

/-- The name that a tag of the document's own is. The mark that stands alone
    is a name too. -/
def Tag.name? : Tag → Option String
  | [] => none
  | b :: bs =>
    if b = UInt8.ofNat '!'.toNat then
      if bs.isEmpty then Text.decode? [b] else Text.decode? bs
    else none

/-- The texts that say that there is nothing. -/
def nullTexts : List String := ["", "~", "null", "Null", "NULL"]

namespace Document

/-- The text of a node. -/
def string? (d : Document) (n : Node) : Option String :=
  match d.resolve n with
  | .scalar text _ _ => some text
  | _ => none

/-- The number below a limit that a node is. -/
def natural? (d : Document) (limit : Nat) (n : Node) : Option Nat :=
  match d.resolve n with
  | .scalar text style tag =>
    if style = .plain ∨ style = .literal ∧ tag = some numberTag then
      (Yaml.natural? text).filter (· < limit)
    else none
  | _ => none

/-- The name that a node chooses. -/
def choice? (d : Document) (n : Node) : Option String :=
  match d.resolve n with
  | .scalar text style tag =>
    match tag.bind Tag.name? with
    | some name => if style = .plain ∧ text ∈ nullTexts then some name else none
    | none => some text
  | _ => none

/-- The node is a scalar that is not there. -/
def isMissing : Node → Bool
  | .scalar "" .plain _ => true
  | _ => false

/-- The items of a node. -/
def items? (d : Document) (n : Node) : Option (List Node) :=
  match d.resolve n with
  | .sequence _ items => some items
  | n => if isMissing n then some [] else none

/-- The members of a node, whose keys have to be texts. -/
def members? (d : Document) (n : Node) : Option (List (String × Node)) :=
  match d.resolve n with
  | .mapping _ members => members.mapM fun m => (d.string? m.1).map fun k => (k, m.2)
  | n => if isMissing n then some [] else none

end Document

example : ["ONE", "'ONE'", "!ONE", "!!str ONE", "! ONE"].map
    (fun s => (parse? s).bind fun d => d.choice? d.root)
    = [some "ONE", some "ONE", some "ONE", some "ONE", none] := by decide +kernel

end Yaml

end QuorumStore
