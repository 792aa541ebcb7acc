import QuorumStore.VersionVector
import QuorumStore.Json.Shape
import QuorumStore.Json.Stream

/-!
# Vectors on the Wire

The JSON form of a version vector.

A vector is a record with one field, its entries by key; an entry is a record
of a node, a counter and a moment; a moment is a record of seconds and
nanoseconds since the start of 1970. Nanoseconds beyond a second are carried,
and the seconds have to fit a signed 64-bit number. A moment is stricter than
the other two: it tolerates no unknown member.

A vector is read in two ways. Inside a message it is taken from a value that
has been read whole; on its own it is read in passing.

## Main definitions

* `VersionVector.toJson`: The JSON form.
* `VersionVector.ofJson?`: The vector a JSON value holds.
* `VersionVector.read`: The vector at the front of a text, read in passing.
* `VersionVector.parse`: The vector that is the whole of a text.
-/

namespace QuorumStore

namespace Instant

/-- The seconds of a moment lie below this. -/
def secondsLimit : Nat := Nat.pow 2 63

/-- Carry whole seconds out of the nanoseconds. -/
def carried (seconds nanos : Nat) : Instant :=
  ⟨seconds + nanos / 1000000000, nanos % 1000000000⟩

/-- The moment is one that can be represented. -/
def inRange (t : Instant) : Bool := decide (t.seconds < secondsLimit)

/-- The JSON form. -/
def toJson (t : Instant) : Json :=
  .object [("secs_since_epoch", .natural t.seconds), ("nanos_since_epoch", .natural t.nanos)]

/-- The moment of two counts, if it is one that can be represented. -/
def ofCounts? (seconds nanos : Json) : Option Instant := do
  let t := carried (← seconds.natural? Json.naturalLimit) (← nanos.natural? (Nat.pow 2 32))
  if t.inRange then some t else none

/-- The moment a JSON value holds. -/
def ofJson? : Json → Option Instant
  | .object ms => do
    let s ← Json.member? "secs_since_epoch" ms
    let n ← Json.member? "nanos_since_epoch" ms
    if ms.length = 2 then ofCounts? s n else none
  | .array [s, n] => ofCounts? s n
  | _ => none

/-- One member of a moment that is read in passing. -/
def readField (key : String) (st : Option Nat × Option Nat) (cs : List Char) :
    Except Json.Fault ((Option Nat × Option Nat) × List Char) := do
  if key = "secs_since_epoch" then
    if st.1.isSome then .error .shape
    let (s, cs) ← Json.expectNatural Json.naturalLimit (← Json.expectColon cs)
    .ok ((some s, st.2), cs)
  else if key = "nanos_since_epoch" then
    if st.2.isSome then .error .shape
    let (n, cs) ← Json.expectNatural (Nat.pow 2 32) (← Json.expectColon cs)
    .ok ((st.1, some n), cs)
  else .error .shape

/-- The moment at the front of a text. An array may overflow 64 bits before it
    is looked at for further items. -/
def read (cs : List Char) : Except Json.Fault (Instant × List Char) := do
  let (t, rest) ← match Json.skipBlanks cs with
    | '{' :: cs => do
      match ← Json.expectFields readField (none, none) cs with
      | ((some s, some n), rest) => .ok (carried s n, rest)
      | _ => .error Json.Fault.shape
    | '[' :: cs => do
      let (s, cs) ← Json.expectItem true (Json.expectNatural Json.naturalLimit) cs
      let (n, cs) ← Json.expectItem false (Json.expectNatural (Nat.pow 2 32)) cs
      let t := carried s n
      if Json.naturalLimit ≤ t.seconds then .error Json.Fault.shape
      else .ok (t, ← Json.expectEnd cs)
    | cs => .error (Json.mismatch cs)
  if t.inRange then .ok (t, rest) else .error .shape

end Instant

namespace VersionVector

/-- The JSON form of an entry. -/
def Entry.toJson (e : Entry) : Json :=
  .object [("node_id", .string e.node), ("counter", .natural e.counter),
    ("updated_at", e.updatedAt.toJson)]

/-- The entry of its three fields. -/
def Entry.ofFields? (node counter updatedAt : Json) : Option Entry := do
  some ⟨← node.string?, ← counter.natural? Json.naturalLimit, ← Instant.ofJson? updatedAt⟩

/-- The entry a JSON value holds. -/
def Entry.ofJson? : Json → Option Entry
  | .object ms => do
    Entry.ofFields? (← Json.member? "node_id" ms) (← Json.member? "counter" ms)
      (← Json.member? "updated_at" ms)
  | .array [n, c, u] => Entry.ofFields? n c u
  | _ => none

/-- The JSON form. -/
def toJson (v : VersionVector) : Json :=
  .object [("entries", .object (v.entries.toList.map fun p => (p.1, p.2.toJson)))]

/-- Read the entries one after another; of two under one key the later
    counts. -/
def entriesOfJson? (ms : List (String × Json)) : Option (Table String Entry) :=
  ms.foldl (fun t? m => do
    let t ← t?
    some (t.insert m.1 (← Entry.ofJson? m.2))) (some Table.empty)

/-- The vector of its one field. -/
def ofField? : Json → Option VersionVector
  | .object ms => (entriesOfJson? ms).map VersionVector.mk
  | _ => none

/-- The vector a JSON value holds. -/
def ofJson? : Json → Option VersionVector
  | .object ms => do ofField? (← Json.member? "entries" ms)
  | .array [j] => ofField? j
  | _ => none

/-- The fields of an entry, as far as they have been read. -/
structure Entry.Partial where
  node : Option String := none
  counter : Option Nat := none
  updatedAt : Option Instant := none

/-- One member of an entry that is read in passing. -/
def Entry.readField (key : String) (st : Entry.Partial) (cs : List Char) :
    Except Json.Fault (Entry.Partial × List Char) := do
  if key = "node_id" then
    if st.node.isSome then .error .shape
    let (n, cs) ← Json.expectString (← Json.expectColon cs)
    .ok ({ st with node := some n }, cs)
  else if key = "counter" then
    if st.counter.isSome then .error .shape
    let (c, cs) ← Json.expectNatural Json.naturalLimit (← Json.expectColon cs)
    .ok ({ st with counter := some c }, cs)
  else if key = "updated_at" then
    if st.updatedAt.isSome then .error .shape
    let (u, cs) ← Instant.read (← Json.expectColon cs)
    .ok ({ st with updatedAt := some u }, cs)
  else .ok (st, ← Json.skipValue (← Json.expectColon cs))

/-- The entry at the front of a text. -/
def Entry.read (cs : List Char) : Except Json.Fault (Entry × List Char) :=
  match Json.skipBlanks cs with
  | '{' :: cs => do
    match ← Json.expectFields Entry.readField {} cs with
    | (⟨some n, some c, some u⟩, rest) => .ok (⟨n, c, u⟩, rest)
    | _ => .error .shape
  | '[' :: cs => do
    let (n, cs) ← Json.expectItem true Json.expectString cs
    let (c, cs) ← Json.expectItem false (Json.expectNatural Json.naturalLimit) cs
    let (u, cs) ← Json.expectItem false Instant.read cs
    .ok (⟨n, c, u⟩, ← Json.expectEnd cs)
  | cs => .error (Json.mismatch cs)

/-- The entries at the front of a text. -/
def readEntries (cs : List Char) : Except Json.Fault (Table String Entry × List Char) :=
  match Json.skipBlanks cs with
  | '{' :: cs =>
    Json.expectFields (fun key t cs => do
      let (e, cs) ← Entry.read (← Json.expectColon cs)
      .ok (t.insert key e, cs)) Table.empty cs
  | cs => .error (Json.mismatch cs)

/-- One member of a vector that is read in passing. -/
def readField (key : String) (st : Option (Table String Entry)) (cs : List Char) :
    Except Json.Fault (Option (Table String Entry) × List Char) := do
  if key = "entries" then
    if st.isSome then .error .shape
    let (t, cs) ← readEntries (← Json.expectColon cs)
    .ok (some t, cs)
  else .ok (st, ← Json.skipValue (← Json.expectColon cs))

/-- The vector at the front of a text. -/
def read (cs : List Char) : Except Json.Fault (VersionVector × List Char) :=
  match Json.skipBlanks cs with
  | '{' :: cs => do
    match ← Json.expectFields readField none cs with
    | (some t, rest) => .ok (⟨t⟩, rest)
    | _ => .error .shape
  | '[' :: cs => do
    let (t, cs) ← Json.expectItem true readEntries cs
    .ok (⟨t⟩, ← Json.expectEnd cs)
  | cs => .error (Json.mismatch cs)

/-- The vector that is the whole of a text but for blanks. -/
def parse (s : String) : Except Json.Fault VersionVector := do
  let (v, rest) ← read s.toList
  if (Json.skipBlanks rest).isEmpty then .ok v else .error .malformed

end VersionVector

end QuorumStore
