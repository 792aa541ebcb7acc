import QuorumStore.Message
import QuorumStore.Wire.Vector

/-!
# Messages on the Wire

The JSON form of requests and responses.

A message is a record with a tag. As an object it has a member that names the
message, besides a member for each field; as an array it has the name in front
of the fields. A message without fields ignores whatever else an object holds.

Reading a message from a text looks at the tag in passing, as soon as it comes
up, and takes in everything else whole. So a tag that is unknown, repeated or
no name ends the reading on the spot, while any other fault of shape is found
only after the whole message has been read, and text behind the message only
after its shape has been checked.

## Main definitions

* `Tagged`: A message's tag and what it holds besides.
* `Tagged.read`: The tagged value at the front of a text.
* `Request.toJson`, `Response.toJson`: The JSON forms.
* `Request.ofJson?`, `Response.ofJson?`: The message a JSON value holds.
* `Request.parse`, `Response.parse`: The message that is the whole of a text.
-/

namespace QuorumStore

namespace Version

/-- The JSON form. -/
def toJson (v : Version) : Json :=
  .object [("value", .string v.value), ("vector", v.vector.toJson),
    ("tombstone", .bool v.tombstone)]

/-- The version of its three fields. -/
def ofFields? (value vector tombstone : Json) : Option Version := do
  some ⟨← value.string?, ← VersionVector.ofJson? vector, ← tombstone.bool?⟩

/-- The version a JSON value holds. The tombstone may be left out, and is then
    not set. -/
def ofJson? : Json → Option Version
  | .object ms => do
    ofFields? (← Json.member? "value" ms) (← Json.member? "vector" ms)
      ((← Json.field? "tombstone" ms).getD (.bool false))
  | .array [value, vector] => ofFields? value vector (.bool false)
  | .array [value, vector, tombstone] => ofFields? value vector tombstone
  | _ => none

end Version

/-- What a tagged record holds besides its tag. -/
inductive Tagged.Body where
  | members (ms : List (String × Json))
  | items (js : List Json)
  deriving Repr

/-- A record with a tag. -/
structure Tagged where
  tag : String
  body : Tagged.Body
  deriving Repr

namespace Tagged

/-- The tagged record that a JSON value is. -/
def ofJson? (tagName : String) : Json → Option Tagged
  | .object ms =>
    match Json.field? tagName ms with
    | some (some (.string tag)) => some ⟨tag, .members (ms.filter fun m => m.1 != tagName)⟩
    | _ => none
  | .array (.string tag :: js) => some ⟨tag, .items js⟩
  | _ => none

/-- The tag, which has to be one of the known names. -/
def readTag (known : String → Bool) (cs : List Char) : Except Json.Fault (String × List Char) := do
  let (tag, cs) ← Json.expectString cs
  if known tag then .ok (tag, cs) else .error .shape

/-- One member of a tagged object: the tag, or a value to be kept. -/
def readField (tagName : String) (known : String → Bool) (key : String)
    (st : Option String × List (String × Json)) (cs : List Char) :
    Except Json.Fault ((Option String × List (String × Json)) × List Char) := do
  if key = tagName then
    if st.1.isSome then .error .shape
    let (tag, cs) ← readTag known (← Json.expectColon cs)
    .ok ((some tag, st.2), cs)
  else
    let cs ← Json.expectColon cs
    let (j, cs) ← Json.orMalformed (Json.readValue? true (Json.depthLimit - 1) cs)
    .ok ((st.1, st.2 ++ [(key, j)]), cs)

/-- The items behind the tag of a tagged array, with what follows the array. -/
def readRest : Nat → List Char → Except Json.Fault (List Json × List Char)
  | 0, _ => .error .malformed
  | room + 1, cs => do
    match ← Json.nextItem false cs with
    | none => .ok ([], ← Json.expectEnd cs)
    | some cs =>
      let (j, cs) ← Json.orMalformed (Json.readValue? true (Json.depthLimit - 1) cs)
      let (js, cs) ← readRest room cs
      .ok (j :: js, cs)

/-- The tagged record at the front of a text. -/
def read (tagName : String) (known : String → Bool) (cs : List Char) :
    Except Json.Fault (Tagged × List Char) :=
  match Json.skipBlanks cs with
  | '{' :: cs => do
    match ← Json.expectFields (readField tagName known) (none, []) cs with
    | ((some tag, ms), rest) => .ok (⟨tag, .members ms⟩, rest)
    | _ => .error .shape
  | '[' :: cs => do
    let (tag, cs) ← Json.expectItem true (readTag known) cs
    let (js, cs) ← readRest (cs.length + 1) cs
    .ok (⟨tag, .items js⟩, cs)
  | cs => .error (Json.mismatch cs)

/-- The message that is the whole of a text: the tagged record is turned into
    the message before the text behind it is looked at. -/
def parseAs {α : Type} (tagName : String) (known : String → Bool)
    (ofTagged? : Tagged → Option α) (cs : List Char) : Except Json.Fault α := do
  let (t, rest) ← read tagName known cs
  match ofTagged? t with
  | none => .error .shape
  | some a => if (Json.skipBlanks rest).isEmpty then .ok a else .error .malformed

/-- A record without fields. -/
def unit? {α : Type} (a : α) : Body → Option α
  | .members _ => some a
  | .items js => if js.isEmpty then some a else none

end Tagged

namespace Request

/-- The JSON form. -/
def toJson : Request → Json
  | ping => .object [("op", .string "ping")]
  | get key => .object [("op", .string "get"), ("key", .string key)]
  | put key version writeId =>
    .object [("op", .string "put"), ("key", .string key), ("versioned", version.toJson),
      ("write_id", .string writeId)]
  | stat => .object [("op", .string "stat")]

/-- The names of requests. -/
def isTag (s : String) : Bool := ["ping", "get", "put", "stat"].contains s

/-- A write of its three fields. -/
def putOfFields? (key version writeId : Json) : Option Request := do
  some (put (← key.string?) (← Version.ofJson? version) (← writeId.string?))

/-- The request that a tagged record is. -/
def ofTagged? (t : Tagged) : Option Request :=
  if t.tag = "ping" then Tagged.unit? ping t.body
  else if t.tag = "stat" then Tagged.unit? stat t.body
  else if t.tag = "get" then
    match t.body with
    | .members ms => do some (get (← (← Json.member? "key" ms).string?))
    | .items [key] => key.string?.map get
    | .items _ => none
  else if t.tag = "put" then
    match t.body with
    | .members ms => do
      putOfFields? (← Json.member? "key" ms) (← Json.member? "versioned" ms)
        (← Json.member? "write_id" ms)
    | .items [key, version, writeId] => putOfFields? key version writeId
    | .items _ => none
  else none

/-- The request a JSON value holds. -/
def ofJson? (j : Json) : Option Request := (Tagged.ofJson? "op" j).bind ofTagged?

/-- The request that is the whole of a text. -/
def parse (cs : List Char) : Except Json.Fault Request :=
  Tagged.parseAs "op" isTag ofTagged? cs

end Request

namespace Response

/-- The JSON form. -/
def toJson : Response → Json
  | pong => .object [("type", .string "pong")]
  | value version =>
    .object [("type", .string "value"),
      ("versioned", match version with
        | some v => v.toJson
        | none => .null)]
  | ack => .object [("type", .string "ack")]
  | stat status n =>
    .object [("type", .string "stat"), ("status", .string status.name), ("key_count", .natural n)]
  | error message => .object [("type", .string "error"), ("message", .string message)]

/-- The names of responses. -/
def isTag (s : String) : Bool := ["pong", "value", "ack", "stat", "error"].contains s

/-- A version, or null for none. -/
def version? : Json → Option (Option Version)
  | .null => some none
  | j => (Version.ofJson? j).map some

/-- A report of its two fields. -/
def statOfFields? (status keyCount : Json) : Option Response := do
  some (stat (← Status.ofName? (← status.choice? Json.isVoid))
    (← keyCount.natural? Json.naturalLimit))

/-- The response that a tagged record is. The version of a value may be left
    out of an object. -/
def ofTagged? (t : Tagged) : Option Response :=
  if t.tag = "pong" then Tagged.unit? pong t.body
  else if t.tag = "ack" then Tagged.unit? ack t.body
  else if t.tag = "value" then
    match t.body with
    | .members ms => do
      some (value (← version? ((← Json.field? "versioned" ms).getD .null)))
    | .items [version] => (version? version).map value
    | .items _ => none
  else if t.tag = "stat" then
    match t.body with
    | .members ms => do
      statOfFields? (← Json.member? "status" ms) (← Json.member? "key_count" ms)
    | .items [status, keyCount] => statOfFields? status keyCount
    | .items _ => none
  else if t.tag = "error" then
    match t.body with
    | .members ms => do some (error (← (← Json.member? "message" ms).string?))
    | .items [message] => message.string?.map error
    | .items _ => none
  else none

/-- The response a JSON value holds. -/
def ofJson? (j : Json) : Option Response := (Tagged.ofJson? "type" j).bind ofTagged?

/-- The response that is the whole of a text. -/
def parse (cs : List Char) : Except Json.Fault Response :=
  Tagged.parseAs "type" isTag ofTagged? cs

end Response

end QuorumStore
