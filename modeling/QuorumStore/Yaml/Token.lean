/-!
# YAML Tokens

The pieces that a document is made of.

Most indicators are a token each. The structure that comes from indentation
alone is made explicit: a block sequence and a block mapping each have a token
where they start, and one token ends either. A key that shows only by the colon
behind it has a token in front of it as well, so what follows can be read from
left to right without looking ahead.

## Main definitions

* `Yaml.ScalarStyle`: How a scalar is written.
* `Yaml.Tag`: The bytes of a tag.
* `Yaml.Token`: A piece of a document.
-/

namespace QuorumStore

namespace Yaml

/-- How a scalar is written. -/
inductive ScalarStyle where
  | plain
  | quoted
  | literal
  | folded
  deriving DecidableEq, Repr, Inhabited

/-- A tag or a part of one, as bytes: escapes in it need not make a text. -/
abbrev Tag := List UInt8

/-- A piece of a document. -/
inductive Token where
  /-- The directive that names a version of the language. -/
  | version (major minor : Nat)
  /-- The directive that lets a handle stand for the start of a tag. -/
  | tagHandle (handle : String) (start : Tag)
  | documentStart
  | documentEnd
  | blockSequence
  | blockMapping
  | blockEnd
  | flowSequence
  | flowSequenceEnd
  | flowMapping
  | flowMappingEnd
  /-- The dash before an item. -/
  | entry
  /-- The comma between items. -/
  | flowEntry
  | key
  | value
  | alias (name : String)
  | anchor (name : String)
  | tag (handle : String) (suffix : Tag)
  | scalar (text : String) (style : ScalarStyle)
  deriving DecidableEq, Repr, Inhabited

end Yaml

end QuorumStore
