import QuorumStore.Configuration.Source
import QuorumStore.Session

/-!
# Client Configurations

What a client is told before it starts.

A client knows its replicas either as a list or, if the list is empty, as the
one server at a host and port. It has a name of its own, a level for reads and
one for writes, four deadlines and a policy. All of this has standard values,
but for the name, which has to be made up for every client that is not given
one.

Not everything that can be written down makes sense. A configuration is sound
if nothing in it is empty or zero that must not be and no replica is listed
twice. `flaw?` finds the first thing that is wrong, in a fixed order: host,
port, name, deadlines, replicas.

## Main definitions

* `ClientConfig`: What a client is told.
* `ClientConfig.ofMembers?`: The configuration of named fields.
* `ClientConfig.ofYaml?`, `ClientConfig.ofJson?`: The same from a format.
* `ClientConfig.Flaw`: What may be wrong with a configuration.
* `ClientConfig.flaw?`: The first thing that is.
* `ClientConfig.replicaSet`, `ClientConfig.settings`: What a session gets.
-/

open QuorumStore.Configuration

namespace QuorumStore

/-- What a client is told. The deadlines are in milliseconds. -/
structure ClientConfig where
  /-- Where the server is if there is no list of replicas. -/
  host : String
  port : UInt16
  /-- The name under which the client's writes are counted. -/
  node : String
  replicas : List Endpoint
  readLevel : Level
  writeLevel : Level
  readTimeout : Nat
  writeTimeout : Nat
  statTimeout : Nat
  /-- How long it may take to reach a replica. -/
  connectTimeout : Nat
  policy : Policy
  deriving DecidableEq, Repr

namespace ClientConfig

/-- The standard configuration under a name that was made up. -/
def standard (node : String) : ClientConfig :=
  ⟨"127.0.0.1", 7000, node, [], .quorum, .quorum, 5000, 5000, 2000, 1000, .surface⟩

/-- The names of the fields, in order. -/
def fieldNames : List String :=
  ["host", "port", "node_id", "replicas", "read_level", "write_level", "read_timeout_ms",
   "write_timeout_ms", "stat_timeout_ms", "connect_timeout_ms", "conflict_policy"]

/-- The configuration of named fields, with the name that is used if none is
    given. -/
def ofMembers? {ν : Type} (s : Source ν) (node : String) (ms : List (String × ν)) :
    Option ClientConfig := do
  let x := standard node
  some
    { host := ← field? ms "host" s.string? x.host
      port := ← field? ms "port" s.port? x.port
      node := ← field? ms "node_id" s.string? x.node
      replicas := ← field? ms "replicas" s.endpoints? x.replicas
      readLevel := ← field? ms "read_level" s.level? x.readLevel
      writeLevel := ← field? ms "write_level" s.level? x.writeLevel
      readTimeout := ← field? ms "read_timeout_ms" s.duration? x.readTimeout
      writeTimeout := ← field? ms "write_timeout_ms" s.duration? x.writeTimeout
      statTimeout := ← field? ms "stat_timeout_ms" s.duration? x.statTimeout
      connectTimeout := ← field? ms "connect_timeout_ms" s.duration? x.connectTimeout
      policy := ← field? ms "conflict_policy" s.policy? x.policy }

/-- The configuration that a document is. -/
def ofYaml? (node : String) (d : Yaml.Document) : Option ClientConfig := do
  ofMembers? (yamlSource d) node (← d.members? d.root)

/-- The configuration that a JSON value is: an object with the fields, or an
    array of the first few in order. -/
def ofJson? (node : String) : Json → Option ClientConfig
  | .object ms => ofMembers? jsonSource node ms
  | .array items =>
    if items.length ≤ fieldNames.length then
      ofMembers? jsonSource node (fieldNames.zip items)
    else none
  | _ => none

/-- The JSON form. -/
def toJson (x : ClientConfig) : Json :=
  .object (fieldNames.zip
    [.string x.host, .natural x.port.toNat, .string x.node,
     .array (x.replicas.map fun e => .string e.text), .string x.readLevel.name,
     .string x.writeLevel.name, .natural x.readTimeout, .natural x.writeTimeout,
     .natural x.statTimeout, .natural x.connectTimeout, .string x.policy.name])

/-- What may be wrong with a configuration. -/
inductive Flaw where
  | blankHost
  | zeroPort
  | blankNode
  /-- The deadline of this name is zero. -/
  | zeroTimeout (name : String)
  | replicaPort (e : Endpoint)
  | repeatedReplica (e : Endpoint)
  deriving DecidableEq, Repr

/-- A flaw as a text. -/
def Flaw.message : Flaw → String
  | blankHost => "host must not be empty"
  | zeroPort => "port must be > 0"
  | blankNode => "node_id must not be empty"
  | zeroTimeout name => name ++ " must be > 0"
  | replicaPort e => "replica " ++ e.text ++ " has port 0"
  | repeatedReplica e => "replica " ++ e.text ++ " listed twice"

/-- The first thing that is wrong with a list of replicas behind others. -/
def replicaFlaw? (before : List Endpoint) : List Endpoint → Option Flaw
  | [] => none
  | e :: es =>
    if e.port = 0 then some (.replicaPort e)
    else if e ∈ before then some (.repeatedReplica e)
    else replicaFlaw? (e :: before) es

/-- The deadlines by name, in order. -/
def timeouts (x : ClientConfig) : List (String × Nat) :=
  [("read_timeout_ms", x.readTimeout), ("write_timeout_ms", x.writeTimeout),
   ("stat_timeout_ms", x.statTimeout), ("connect_timeout_ms", x.connectTimeout)]

/-- The first thing that is wrong with a configuration. -/
def flaw? (x : ClientConfig) : Option Flaw :=
  if Text.isBlankText x.host then some .blankHost
  else if x.port = 0 then some .zeroPort
  else if Text.isBlankText x.node then some .blankNode
  else match x.timeouts.find? (·.2 == 0) with
    | some t => some (.zeroTimeout t.1)
    | none => replicaFlaw? [] x.replicas

/-- The replicas of a client. -/
def replicaSet (x : ClientConfig) : List Endpoint :=
  if x.replicas.isEmpty then [⟨x.host, x.port⟩] else x.replicas

/-- The settings of a client's session. -/
def settings (x : ClientConfig) : Settings :=
  ⟨x.node, x.readLevel, x.writeLevel, x.readTimeout, x.writeTimeout, x.statTimeout, x.policy⟩

/-- A client's session at its start. -/
def session (x : ClientConfig) : Session :=
  Session.start x.settings (Placement.uniform (ReplicaSet.ofList x.replicaSet))

end ClientConfig

end QuorumStore
