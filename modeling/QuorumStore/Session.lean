import QuorumStore.FanOut
import QuorumStore.Version.Reconcile
import QuorumStore.Duration

/-!
# Sessions

A client's conversation with a replica set.

A session has a name, levels and deadlines, and remembers one vector for each
key: the history it has taken part in. A write advances that vector by one for
the session's own name and goes out under it. A read takes the vectors of the
versions that survive reconciliation into it, so that the next write follows
what was read. Both happen whatever becomes of the operation afterwards: a
write that fails has still advanced the vector, since some replica may have it.

Every operation is a function of the session, the cluster and a plan for each
call; it returns the answer with the new session, the new cluster, the counts
of what happened and the time it took. A session that has not connected does
nothing at all. One without replicas for a key counts the operation and sends
nothing.

## Main definitions

* `Settings`: What a session is told.
* `Session`: What it is told and what it remembers.
* `OpError`: Why an operation has no answer.
* `Counters`: What has happened, in numbers.
* `Effect`: An answer, with everything that comes of an operation.
* `Session.connect`, `Session.get`, `Session.write`, `Session.stat`.
-/

namespace QuorumStore

/-- What a session is told. The deadlines are in milliseconds. -/
structure Settings where
  /-- The name under which the session's writes are counted. -/
  node : String
  readLevel : Level
  writeLevel : Level
  readTimeout : Nat
  writeTimeout : Nat
  /-- The limit for each replica when a session connects or asks for status. -/
  statTimeout : Nat
  policy : Policy
  deriving DecidableEq, Repr, Inhabited

/-- The settings of a session that is told its name only. -/
def Settings.standard (node : String) : Settings :=
  ⟨node, .all, .all, 5000, 5000, 2000, .surface⟩

/-- What a session is told and what it remembers. -/
structure Session where
  settings : Settings
  placement : Placement
  connected : Bool
  /-- The history of each key that was written or read. -/
  clocks : Table String VersionVector
  deriving DecidableEq, Repr, Inhabited

/-- Why an operation has no answer. -/
inductive OpError where
  | notConnected
  | noReplicas
  | transport (endpoint : Endpoint) (cause : CallError)
  | timeout (operation : Kind) (needed got : Nat)
  | conflict (key : String) (siblings : List Version)
  | notFound (key : String)
  deriving DecidableEq, Repr

namespace OpError

/-- The text of an error. -/
def message : OpError → String
  | notConnected => "not connected"
  | noReplicas => "no replicas configured"
  | transport e cause => "replica " ++ e.text ++ ": " ++ cause.message
  | timeout operation needed got =>
    operation.name ++ " timed out: needed " ++ listNat needed ++ " responses, got " ++ listNat got
  | conflict key siblings =>
    "conflict on key '" ++ key ++ "': " ++ listNat siblings.length ++ " concurrent versions"
  | notFound _ => "key not found"

end OpError

/-- What has happened, in numbers. -/
structure Counters where
  gets : Nat := 0
  puts : Nat := 0
  deletes : Nat := 0
  stats : Nat := 0
  timeouts : Nat := 0
  conflicts : Nat := 0
  deriving DecidableEq, Repr, Inhabited

/-- Two lots of counts together. -/
def Counters.add (a b : Counters) : Counters :=
  ⟨a.gets + b.gets, a.puts + b.puts, a.deletes + b.deletes, a.stats + b.stats,
   a.timeouts + b.timeouts, a.conflicts + b.conflicts⟩

/-- What a read found. -/
structure Found where
  value : String
  /-- The vector of the version it comes from. -/
  vector : VersionVector
  /-- How many replies the answer rests on. -/
  responses : Nat
  deriving DecidableEq, Repr

/-- What became of a write. -/
structure Written where
  /-- The vector it was written under. -/
  vector : VersionVector
  acks : Nat
  deriving DecidableEq, Repr

/-- The line of a replica in a status report. -/
structure NodeReport where
  endpoint : Endpoint
  status : Status
  /-- How many keys it holds; nothing if it did not answer. -/
  keyCount : Option Nat
  deriving DecidableEq, Repr

/-- How the replicas fare, in the order of their endpoints. -/
structure StatReport where
  nodes : List NodeReport
  deriving DecidableEq, Repr

/-- How many replicas answered. -/
def StatReport.reachable (r : StatReport) : Nat :=
  (r.nodes.filter fun n => n.status != .unreachable).length

/-- An operation's answer, with everything that comes of it. -/
structure Effect (α : Type) where
  result : Except OpError α
  session : Session
  cluster : Cluster
  /-- What the operation added to the counts. -/
  counters : Counters
  /-- How many milliseconds it took. -/
  elapsed : Nat

/-- What a write takes from outside: the moment, and an identifier that no
    other write has. -/
structure Ticket where
  now : Instant
  writeId : String
  deriving DecidableEq, Repr, Inhabited

namespace Session

/-- A session that has not connected and remembers nothing. -/
def start (settings : Settings) (placement : Placement) : Session :=
  ⟨settings, placement, false, Table.empty⟩

/-- The history of a key; empty if it was never written or read. -/
def history (s : Session) (key : String) : VersionVector :=
  (s.clocks.get? key).getD .empty

/-- Take another history of a key for the old one. -/
def setHistory (s : Session) (key : String) (v : VersionVector) : Session :=
  { s with clocks := s.clocks.insert key v }

/-- An operation that does nothing but fail. -/
def refuse {α : Type} (s : Session) (c : Cluster) (counters : Counters) (e : OpError) :
    Effect α :=
  ⟨.error e, s, c, counters, 0⟩

/-- The error of an operation whose calls fell short. -/
def shortfallError (operation : Kind) (needed : Nat) : Shortfall → OpError
  | .failure e cause => .transport e cause
  | .tooFew got => .timeout operation needed got

/-- The counts of an operation whose calls ended so. -/
def endingCounters : Ending → Counters
  | .timedOut => { timeouts := 1 }
  | _ => {}

/-- The history of a key after a read: the vectors of all survivors are taken
    in. A read that finds nothing leaves no trace. -/
def observe (s : Session) (key : String) (survivors : List Version) : Session :=
  if survivors.isEmpty then s
  else s.setHistory key (survivors.foldl (fun v w => v.merge w.vector) (s.history key))

/-- The response to a read: a version or nothing. -/
def acceptValue : Response → Except CallError (Option Version)
  | .value v => .ok v
  | r => .error (CallError.unexpected Kind.get.name r)

/-- The response to a write of a kind. -/
def acceptAck (operation : Kind) : Response → Except CallError Unit
  | .ack => .ok ()
  | r => .error (CallError.unexpected operation.name r)

/-- What a read comes to once its replies are in. A tombstone that wins hides
    the key. -/
def concludeGet (policy : Policy) (key : String) (responses : Nat) (survivors : List Version) :
    Except OpError Found :=
  match Version.resolve policy survivors with
  | .missing => .error (.notFound key)
  | .conflict siblings => .error (.conflict key siblings)
  | .winner v =>
    if v.tombstone then .error (.notFound key) else .ok ⟨v.value, v.vector, responses⟩

/-- The counts of a read that came to this. -/
def conflictCounters : Except OpError Found → Counters
  | .error (.conflict _ _) => { conflicts := 1 }
  | _ => {}

/-- Read a key. -/
def get (s : Session) (c : Cluster) (plan : Endpoint → Plan) (key : String) : Effect Found :=
  let counted : Counters := { gets := 1 }
  let replicas := s.placement.replicasFor key
  if !s.connected then s.refuse c {} .notConnected
  else if replicas.isEmpty then s.refuse c counted .noReplicas
  else
    let needed := s.settings.readLevel.required replicas.size
    let (outcome, c) :=
      c.fanOut plan replicas (.get key) needed s.settings.readTimeout acceptValue
    match outcome.result with
    | .error short =>
      ⟨.error (shortfallError .get needed short), s, c,
        counted.add (endingCounters outcome.ending), outcome.elapsed⟩
    | .ok replies =>
      let survivors := Version.reconcile (replies.filterMap (·.2))
      let result := concludeGet s.settings.policy key replies.length survivors
      ⟨result, s.observe key survivors, c, counted.add (conflictCounters result),
        outcome.elapsed⟩

/-- The version that a write of a kind leaves, under its vector. -/
def versionOf (value : Option String) (vector : VersionVector) : Version :=
  match value with
  | some v => .live v vector
  | none => .deleted vector

/-- The vector of a session's next write to a key. -/
def nextVector (s : Session) (ticket : Ticket) (key : String) : VersionVector :=
  (s.history key).update s.settings.node ticket.now

/-- The request of a session's next write to a key. -/
def writeRequest (s : Session) (ticket : Ticket) (key : String) (value : Option String) :
    Request :=
  .put key (versionOf value (s.nextVector ticket key)) ticket.writeId

/-- Write a key: a value, or the mark that there is none. -/
def write (s : Session) (c : Cluster) (plan : Endpoint → Plan) (ticket : Ticket)
    (key : String) (value : Option String) : Effect Written :=
  let operation := if value.isSome then Kind.put else Kind.delete
  let counted : Counters := if value.isSome then { puts := 1 } else { deletes := 1 }
  let replicas := s.placement.replicasFor key
  if !s.connected then s.refuse c {} .notConnected
  else if replicas.isEmpty then s.refuse c counted .noReplicas
  else
    let vector := s.nextVector ticket key
    let request := s.writeRequest ticket key value
    let s := s.setHistory key vector
    let needed := s.settings.writeLevel.required replicas.size
    let (outcome, c) :=
      c.fanOut plan replicas request needed s.settings.writeTimeout (acceptAck operation)
    let result := match outcome.result with
      | .error short => .error (shortfallError operation needed short)
      | .ok replies => .ok ⟨vector, replies.length⟩
    ⟨result, s, c, counted.add (endingCounters outcome.ending), outcome.elapsed⟩

/-- Write a value. -/
def put (s : Session) (c : Cluster) (plan : Endpoint → Plan) (ticket : Ticket)
    (key value : String) : Effect Written :=
  s.write c plan ticket key (some value)

/-- Delete a key. -/
def delete (s : Session) (c : Cluster) (plan : Endpoint → Plan) (ticket : Ticket)
    (key : String) : Effect Written :=
  s.write c plan ticket key none

/-- What a replica that was greeted comes to: it is there, or it is not, with
    a cause or without. -/
def greeting (limit : Nat) : Option Reply → Judged Unit
  | none => .refused (.connection ("no reply within " ++ Duration.spell limit))
  | some reply => reply.judge fun
    | .pong => .ok ()
    | r => .error (CallError.unexpected Kind.ping.name r)

/-- The tally of the greetings, in the order of the replica set. -/
def greetings (limit : Nat) (replies : List (Endpoint × Option Reply)) : Tally Unit :=
  replies.foldl (fun t r => t.record r.1 (greeting limit r.2)) {}

/-- Greet every replica. One that answers is enough. -/
def connect (s : Session) (c : Cluster) (plan : Endpoint → Plan) : Effect Nat :=
  let replicas := s.placement.everywhere
  if replicas.isEmpty then s.refuse c {} .noReplicas
  else
    let limit := s.settings.statTimeout
    let (replies, c, elapsed) := c.askEach plan replicas .ping limit
    let tally := greetings limit replies
    if tally.accepted.isEmpty then
      let error := match tally.lastFailure with
        | some (e, cause) => OpError.transport e cause
        | none => OpError.noReplicas
      ⟨.error error, s, c, {}, elapsed⟩
    else ⟨.ok tally.accepted.length, { s with connected := true }, c, {}, elapsed⟩

/-- The line of a replica that was asked for its status. -/
def nodeReport (e : Endpoint) : Option Reply → NodeReport
  | some (.response (.stat status keyCount)) => ⟨e, status, some keyCount⟩
  | _ => ⟨e, .unreachable, none⟩

/-- Ask every replica for its status. -/
def stat (s : Session) (c : Cluster) (plan : Endpoint → Plan) : Effect StatReport :=
  if !s.connected then s.refuse c {} .notConnected
  else
    let (replies, c, elapsed) :=
      c.askEach plan s.placement.everywhere .stat s.settings.statTimeout
    let nodes := (replies.map fun r => nodeReport r.1 r.2).mergeSort fun a b =>
      (compare a.endpoint b.endpoint).isLE
    ⟨.ok ⟨nodes⟩, s, c, { stats := 1 }, elapsed⟩

/-- Change the levels of a session; one that is not named stays. -/
def setLevels (s : Session) (read write : Option Level) : Session :=
  { s with settings := { s.settings with
    readLevel := read.getD s.settings.readLevel
    writeLevel := write.getD s.settings.writeLevel } }

end Session

/-- The settings in a listing. -/
def Settings.listing (x : Settings) : String :=
  listRecord "CoordinatorConfig"
    [("node_id", Text.quoted x.node), ("read_tier", x.readLevel.listing),
     ("write_tier", x.writeLevel.listing), ("read_timeout", Duration.spell x.readTimeout),
     ("write_timeout", Duration.spell x.writeTimeout),
     ("stat_timeout", Duration.spell x.statTimeout), ("conflict_policy", x.policy.listing)]

/-- A session in a listing, which leaves out what it remembers. -/
def Session.listing (s : Session) : String :=
  "Coordinator \x7b config: " ++ s.settings.listing ++ ", connected: " ++ listBool s.connected
    ++ ", .. \x7d"

end QuorumStore
