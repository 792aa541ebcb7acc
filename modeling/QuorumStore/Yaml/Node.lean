import QuorumStore.Table
import QuorumStore.Yaml.Token

/-!
# YAML Nodes

What a document says: scalars, sequences, mappings, and references to other
nodes.

A node can be given a name by an anchor, and an alias stands for the node of a
name. A name can be given away again. Names are looked up when the alias is
read, but what they lead to is a slot, and the number of a slot is the number
of different names that were known when it was assigned. So a name that is
given away again shares its new slot with the next name that is new, and
whoever comes last has it. A document therefore keeps its aliases as slots and
says at the end who has which.

## Main definitions

* `Yaml.Node`: A part of a document.
* `Yaml.Anchors`: Which names lead where.
* `Yaml.Document`: A whole document.
* `Yaml.Document.resolve`: The node that a node stands for.
-/

namespace QuorumStore

namespace Yaml

/-- A part of a document. -/
inductive Node where
  /-- Whatever has a slot. -/
  | alias (slot : Nat)
  | scalar (text : String) (style : ScalarStyle) (tag : Option Tag)
  | sequence (tag : Option Tag) (items : List Node)
  | mapping (tag : Option Tag) (members : List (Node × Node))
  deriving Repr, Inhabited

/-- A scalar that is not there. -/
def Node.missing : Node := .scalar "" .plain none

/-- Which names lead where. -/
structure Anchors where
  /-- The slot of each name. -/
  slots : Table String Nat := Table.empty
  /-- Who has each slot last: the number of an anchor. -/
  owners : Table Nat Nat := Table.empty
  /-- The node behind each anchor. -/
  nodes : Table Nat Node := Table.empty
  /-- How many anchors there were. -/
  count : Nat := 0
  deriving Inhabited

namespace Anchors

/-- Give a name away. The node is still to come. -/
def name (a : Anchors) (s : String) : Anchors :=
  let slot := a.slots.size
  { a with slots := a.slots.insert s slot, owners := a.owners.insert slot a.count,
           count := a.count + 1 }

/-- The node behind an anchor. -/
def complete (a : Anchors) (number : Nat) (n : Node) : Anchors :=
  { a with nodes := a.nodes.insert number n }

/-- The node in a slot. -/
def lookup? (a : Anchors) (slot : Nat) : Option Node :=
  (a.owners.get? slot).bind a.nodes.get?

end Anchors

/-- A whole document. -/
structure Document where
  /-- Its outermost node, which is missing from an empty document. -/
  root : Node
  anchors : Anchors
  deriving Inhabited

namespace Document

/-- A document that says nothing. -/
def blank : Document := ⟨Node.missing, {}⟩

/-- The node that a node stands for. No alias stands for an alias. -/
def resolve (d : Document) : Node → Node
  | .alias slot => (d.anchors.lookup? slot).getD Node.missing
  | n => n

end Document

end Yaml

end QuorumStore
