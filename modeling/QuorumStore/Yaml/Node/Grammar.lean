import QuorumStore.Text.Utf8
import QuorumStore.Yaml.Node

/-!
# From Tokens to Nodes

How the tokens of a document make up its nodes.

One token ahead always tells what comes next. Wherever a node may be missing,
an empty scalar takes its place; in block collections that is so for items,
keys and values, in flow collections for keys and values. A sequence that is
the value of a mapping need not be indented, and then it has no tokens for its
start and end. A pair in a flow sequence is a mapping of its own; where its key
is missing, the token that shows it is lost.

The rules call each other, so each of them gets a bound on how deep they may
still go. No rule goes deeper by more than three without taking a token, which
is why the bound of `document?` is never reached.

## Main definitions

* `Yaml.Reader`: The tokens ahead, and the names so far.
* `Yaml.Reader.node`: The node ahead.
* `Yaml.document?`: The document that some tokens make up.
-/

namespace QuorumStore

namespace Yaml

/-- The tokens ahead, the names so far and what the handles of tags stand
    for. -/
structure Reader.State where
  tokens : List Token
  anchors : Anchors := {}
  handles : List (String × Tag) := []

/-- What can be read off some tokens. -/
abbrev Reader := StateT Reader.State Option

namespace Reader

/-- The token ahead. -/
def ahead : Reader (Option Token) := do return (← get).tokens.head?

/-- Pass the token ahead. -/
def pass : Reader Unit := modify fun s => { s with tokens := s.tokens.tail }

/-- Pass the token ahead if it is this one. -/
def passIf (t : Token) : Reader Bool := do
  if (← ahead) = some t then
    pass
    return true
  else return false

/-- Pass the token ahead, which has to be this one. -/
def expect (t : Token) : Reader Unit := do
  if !(← passIf t) then failure

/-- The slot of a name that has been given away. -/
def slotOf (name : String) : Reader Nat := do
  match (← get).anchors.slots.get? name with
  | some slot => return slot
  | none => failure

/-- The anchor ahead, if there is one. -/
def anchor? : Reader (Option String) := do
  match ← ahead with
  | some (.anchor name) =>
    pass
    return some name
  | _ => return none

/-- The tag of a handle and a suffix. -/
def tagOf (handle : String) (suffix : Tag) : Reader Tag := do
  if handle = "" then return suffix
  else match (← get).handles.lookup handle with
    | some start => return start ++ suffix
    | none => failure

/-- The tag ahead, if there is one. -/
def tag? : Reader (Option Tag) := do
  match ← ahead with
  | some (.tag handle suffix) =>
    pass
    return some (← tagOf handle suffix)
  | _ => return none

/-- The anchor and the tag ahead, in either order. -/
def properties : Reader (Option String × Option Tag) := do
  match ← anchor? with
  | some name => return (some name, ← tag?)
  | none =>
    match ← tag? with
    | some t => return (← anchor?, some t)
    | none => return (none, none)

/-- Give the node that `body` reads the name of its anchor, which can already
    be referred to inside of it. -/
def named (anchor : Option String) (body : Reader Node) : Reader Node := do
  match anchor with
  | none => body
  | some name =>
    let number := (← get).anchors.count
    modify fun s => { s with anchors := s.anchors.name name }
    let n ← body
    modify fun s => { s with anchors := s.anchors.complete number n }
    return n

/-- Where a node stands. -/
inductive Place where
  | flow
  | block
  /-- The key or value of a block mapping. -/
  | blockMember
  deriving DecidableEq, Repr

mutual

/-- The node ahead. -/
def node : Nat → Place → Reader Node
  | 0, _ => failure
  | room + 1, place => do
    match ← ahead with
    | some (.alias name) =>
      pass
      return .alias (← slotOf name)
    | _ =>
      let (anchor, tag) ← properties
      named anchor (content room place tag (anchor.isSome || tag.isSome))

/-- What is ahead of a node behind its properties. A node with properties may
    have nothing else. -/
def content : Nat → Place → Option Tag → Bool → Reader Node
  | 0, _, _, _ => failure
  | room + 1, place, tag, mayMiss => do
    match ← ahead with
    | some (.scalar text style) =>
      pass
      return .scalar text style tag
    | some .flowSequence =>
      pass
      return .sequence tag (← flowItems room true)
    | some .flowMapping =>
      pass
      return .mapping tag (← flowMembers room true)
    | t =>
      if t = some .entry ∧ place = .blockMember then
        return .sequence tag (← looseItems room)
      else if t = some .blockSequence ∧ place ≠ .flow then
        pass
        return .sequence tag (← items room)
      else if t = some .blockMapping ∧ place ≠ .flow then
        pass
        return .mapping tag (← members room)
      else if mayMiss then return .scalar "" .plain tag
      else failure

/-- The node ahead, or a missing one in front of some tokens. -/
def nodeUnless : Nat → Place → List Token → Reader Node
  | 0, _, _ => failure
  | room + 1, place, ends => do
    if (← ahead).any ends.contains then return Node.missing else node room place

/-- The items of a block sequence, with its end. -/
def items : Nat → Reader (List Node)
  | 0 => failure
  | room + 1 => do
    if ← passIf .entry then
      let n ← nodeUnless room .block [.entry, .blockEnd]
      return n :: (← items room)
    else
      expect .blockEnd
      return []

/-- The items of a sequence that is not indented. -/
def looseItems : Nat → Reader (List Node)
  | 0 => failure
  | room + 1 => do
    if ← passIf .entry then
      let n ← nodeUnless room .block [.entry, .key, .value, .blockEnd]
      return n :: (← looseItems room)
    else return []

/-- The members of a block mapping, with its end. -/
def members : Nat → Reader (List (Node × Node))
  | 0 => failure
  | room + 1 => do
    if ← passIf .key then
      let k ← nodeUnless room .blockMember [.key, .value, .blockEnd]
      let v ← if ← passIf .value then nodeUnless room .blockMember [.key, .value, .blockEnd]
        else pure Node.missing
      return (k, v) :: (← members room)
    else
      expect .blockEnd
      return []

/-- The items of a flow sequence, with its end. -/
def flowItems : Nat → Bool → Reader (List Node)
  | 0, _ => failure
  | room + 1, isFirst => do
    if ← passIf .flowSequenceEnd then return []
    else
      if !isFirst then expect .flowEntry
      if ← passIf .flowSequenceEnd then return []
      else if ← passIf .key then
        let n ← pair room
        return n :: (← flowItems room false)
      else
        let n ← node room .flow
        return n :: (← flowItems room false)

/-- A pair in a flow sequence, behind the token of its key. -/
def pair : Nat → Reader Node
  | 0 => failure
  | room + 1 => do
    let ends := [Token.value, .flowEntry, .flowSequenceEnd]
    let k ← if (← ahead).any ends.contains then
        pass
        pure Node.missing
      else node room .flow
    let v ← if ← passIf .value then nodeUnless room .flow [.flowEntry, .flowSequenceEnd]
      else pure Node.missing
    return .mapping none [(k, v)]

/-- The members of a flow mapping, with its end. -/
def flowMembers : Nat → Bool → Reader (List (Node × Node))
  | 0, _ => failure
  | room + 1, isFirst => do
    if ← passIf .flowMappingEnd then return []
    else
      if !isFirst then expect .flowEntry
      if ← passIf .flowMappingEnd then return []
      else if ← passIf .key then
        let k ← nodeUnless room .flow [.value, .flowEntry, .flowMappingEnd]
        let v ← if ← passIf .value then nodeUnless room .flow [.flowEntry, .flowMappingEnd]
          else pure Node.missing
        return (k, v) :: (← flowMembers room false)
      else
        let k ← node room .flow
        return (k, Node.missing) :: (← flowMembers room false)

end

/-- The directives ahead: whether there was a version, and the handles. Only
    the two versions of the language that are known may be asked for. -/
def directives : Nat → Bool → List (String × Tag) → Reader (List (String × Tag))
  | 0, _, _ => failure
  | room + 1, versioned, handles => do
    match ← ahead with
    | some (.version major minor) =>
      if versioned || major != 1 || !(minor == 1 || minor == 2) then failure
      else
        pass
        directives room true handles
    | some (.tagHandle handle start) =>
      if (handles.lookup handle).isSome then failure
      else
        pass
        directives room versioned (handles ++ [(handle, start)])
    | _ => return handles

/-- What the handles of tags stand for if no directive says otherwise. -/
def standardHandles : List (String × Tag) :=
  [("!", Text.encode "!"), ("!!", Text.encode "tag:yaml.org,2002:")]

/-- Pass the marks that end a document. -/
def passEnds : Nat → Reader Unit
  | 0 => failure
  | room + 1 => do
    if ← passIf .documentEnd then passEnds room

/-- The only document, if there is one. -/
def whole (room : Nat) : Reader Document := do
  match ← ahead with
  | none => return Document.blank
  | some t =>
    let root ← match t with
      | .version _ _ | .tagHandle _ _ | .documentStart => do
        let handles ← directives room false []
        modify fun s => { s with handles := handles ++ standardHandles }
        expect .documentStart
        match ← ahead with
        | none | some .documentEnd => pure Node.missing
        | some (.version _ _) | some (.tagHandle _ _) | some .documentStart => failure
        | _ => node room .block
      | _ => do
        modify fun s => { s with handles := standardHandles }
        node room .block
    passEnds room
    if (← ahead).isSome then failure
    else return ⟨root, (← get).anchors⟩

end Reader

/-- The document that some tokens make up. There must not be a second one. -/
def document? (tokens : List Token) : Option Document :=
  ((Reader.whole (4 * tokens.length + 8)).run { tokens }).map (·.1)

end Yaml

end QuorumStore
