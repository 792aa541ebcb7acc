import QuorumStore.Version
import QuorumStore.Text.Quoted

/-!
# Messages

What a session and a replica say to each other.

A call is one request and one response. A deletion is a put whose version is a
tombstone, so there are four requests and five kinds of call.

A call that does not bring the response it asked for fails in one of three
ways, according to how far it got: it never reached the replica, its response
was missing or made no sense, or the replica reported an error of its own.

## Main definitions

* `Request`, `Response`: The two sides of a call.
* `Kind`: What a call is for.
* `Status`: How a replica fares.
* `CallError`: Why a call brought no usable response.
* `CallError.unexpected`: The error for a response of the wrong kind.
* `Response.listing`: A response in full, as such an error quotes it.
-/

namespace QuorumStore

/-- How a replica fares. The last of these is never said by a replica: it is
    noted of one that did not answer. -/
inductive Status where
  | alive
  | suspect
  | faulty
  | unreachable
  deriving DecidableEq, Repr, Inhabited

/-- What a session asks of a replica. -/
inductive Request where
  | ping
  | get (key : String)
  | put (key : String) (version : Version) (writeId : String)
  | stat
  deriving DecidableEq, Repr, Inhabited

/-- What a replica answers. -/
inductive Response where
  | pong
  | value (version : Option Version)
  | ack
  | stat (status : Status) (keyCount : Nat)
  | error (message : String)
  deriving DecidableEq, Repr, Inhabited

/-- What a call is for. -/
inductive Kind where
  | ping
  | get
  | put
  | delete
  | stat
  deriving DecidableEq, Repr, Inhabited

/-- Why a call brought no usable response. -/
inductive CallError where
  /-- The replica saw no complete request. -/
  | connection (reason : String)
  /-- The response was missing, malformed or of the wrong kind. -/
  | protocol (reason : String)
  /-- The replica reported an error. -/
  | remote (reason : String)
  deriving DecidableEq, Repr, Inhabited

namespace Status

/-- The name of a status. -/
def name : Status → String
  | alive => "alive"
  | suspect => "suspect"
  | faulty => "faulty"
  | unreachable => "unreachable"

/-- The status of a name. -/
def ofName? (s : String) : Option Status :=
  if s = "alive" then some alive
  else if s = "suspect" then some suspect
  else if s = "faulty" then some faulty
  else if s = "unreachable" then some unreachable
  else none

/-- The name of a status in a listing. -/
def listing : Status → String
  | alive => "Alive"
  | suspect => "Suspect"
  | faulty => "Faulty"
  | unreachable => "Unreachable"

end Status

namespace Kind

/-- The name of a kind of call. -/
def name : Kind → String
  | ping => "ping"
  | get => "get"
  | put => "put"
  | delete => "delete"
  | stat => "stat"

end Kind

/-- What a request is for. -/
def Request.kind : Request → Kind
  | ping => .ping
  | get _ => .get
  | put _ v _ => if v.tombstone then .delete else .put
  | stat => .stat

/-- A name with fields in braces, as listings show a record. -/
def listRecord (name : String) (fields : List (String × String)) : String :=
  name ++ " \x7b " ++ ", ".intercalate (fields.map fun f => f.1 ++ ": " ++ f.2) ++ " \x7d"

/-- A number in a listing. -/
def listNat (n : Nat) : String := String.ofList (Numeral.digits n)

/-- A truth value in a listing. -/
def listBool (b : Bool) : String := if b then "true" else "false"

namespace VersionVector

/-- An entry in a listing. -/
def Entry.listing (e : Entry) : String :=
  listRecord "ClockEntry"
    [("node_id", Text.quoted e.node), ("counter", listNat e.counter),
     ("updated_at", listRecord "SystemTime"
       [("tv_sec", listNat e.updatedAt.seconds), ("tv_nsec", listNat e.updatedAt.nanos)])]

/-- A vector in a listing. -/
def listing (v : VersionVector) : String :=
  let items := v.entries.toList.map fun p => Text.quoted p.1 ++ ": " ++ p.2.listing
  listRecord "VersionVector" [("entries", "\x7b" ++ ", ".intercalate items ++ "\x7d")]

end VersionVector

/-- A version in a listing. -/
def Version.listing (v : Version) : String :=
  listRecord "VersionedValue"
    [("value", Text.quoted v.value), ("vector", v.vector.listing),
     ("tombstone", listBool v.tombstone)]

namespace Response

/-- A response in a listing. -/
def listing : Response → String
  | pong => "Pong"
  | value none => listRecord "Value" [("versioned", "None")]
  | value (some v) => listRecord "Value" [("versioned", "Some(" ++ v.listing ++ ")")]
  | ack => "Ack"
  | stat status n =>
    listRecord "Stat" [("status", status.listing), ("key_count", listNat n)]
  | error message => listRecord "Error" [("message", Text.quoted message)]

end Response

namespace CallError

/-- The text of an error. -/
def message : CallError → String
  | connection reason => "connection failed: " ++ reason
  | protocol reason => "protocol error: " ++ reason
  | remote reason => "replica error: " ++ reason

/-- The call never reached the replica. -/
def isConnection : CallError → Bool
  | connection _ => true
  | _ => false

/-- The error for a response that does not answer the request. A reported
    error is passed on; anything else is quoted in full. -/
def unexpected (operation : String) : Response → CallError
  | .error message => remote message
  | r => protocol ("unexpected reply to " ++ operation ++ ": " ++ r.listing)

end CallError

end QuorumStore
