import QuorumStore.Session

/-!
# Operations

The five things a session can be asked to do, as values.

A run of a system is a list of these: who does what, with what plan for its
calls. Everything that can be said of single operations carries over to runs
through `System.step`, which is the one transition there is.

## Main definitions

* `Operation`: Something a session is asked to do.
* `Answer`: What comes of it if it succeeds.
* `Session.perform`: The effect of an operation.
* `Session.outgoing?`: What an operation sends, and where to.
* `System`: Sessions that share a cluster, and the counts so far.
* `Move`: Who does what, under which circumstances.
* `System.step`: The system after a move.
-/

namespace QuorumStore

/-- Something a session is asked to do. -/
inductive Operation where
  | connect
  | get (key : String)
  | put (key value : String)
  | delete (key : String)
  | stat
  deriving DecidableEq, Repr, Inhabited

/-- What an operation calls replicas for. -/
def Operation.kind : Operation → Kind
  | connect => .ping
  | get _ => .get
  | put _ _ => .put
  | delete _ => .delete
  | stat => .stat

/-- What comes of an operation that succeeds. -/
inductive Answer where
  /-- So many replicas are there. -/
  | reached (count : Nat)
  | found (f : Found)
  | written (w : Written)
  | report (r : StatReport)
  deriving DecidableEq, Repr

/-- The effect with another form of answer. -/
def Effect.map {α β : Type} (f : α → β) (e : Effect α) : Effect β :=
  { e with result := e.result.map f }

/-- The effect of an operation. -/
def Session.perform (s : Session) (c : Cluster) (plan : Endpoint → Plan) (ticket : Ticket) :
    Operation → Effect Answer
  | .connect => (s.connect c plan).map .reached
  | .get key => (s.get c plan key).map .found
  | .put key value => (s.put c plan ticket key value).map .written
  | .delete key => (s.delete c plan ticket key).map .written
  | .stat => (s.stat c plan).map .report

/-- What an operation sends, and where to; nothing if it does not come to that. -/
def Session.outgoing? (s : Session) (ticket : Ticket) (op : Operation) :
    Option (Request × ReplicaSet) :=
  let sent (request : Request) (replicas : ReplicaSet) :=
    if replicas.isEmpty then none else some (request, replicas)
  match op with
  | .connect => sent .ping s.placement.everywhere
  | .get key => if s.connected then sent (.get key) (s.placement.replicasFor key) else none
  | .put key value =>
    if s.connected then
      sent (s.writeRequest ticket key (some value)) (s.placement.replicasFor key)
    else none
  | .delete key =>
    if s.connected then sent (s.writeRequest ticket key none) (s.placement.replicasFor key)
    else none
  | .stat => if s.connected then sent .stat s.placement.everywhere else none

/-- Sessions that share a cluster, and what has happened so far. -/
structure System where
  cluster : Cluster
  sessions : List Session
  counters : Counters
  deriving DecidableEq, Repr, Inhabited

/-- Who does what, under which circumstances. -/
structure Move where
  /-- The session's place in the list. -/
  who : Nat
  operation : Operation
  plan : Endpoint → Plan
  ticket : Ticket

namespace System

/-- The system behind an operation's effect on one of its sessions. -/
def settle {α : Type} (sys : System) (who : Nat) (e : Effect α) : System :=
  ⟨e.cluster, sys.sessions.set who e.session, sys.counters.add e.counters⟩

/-- The effect of a move; none if nobody makes it. -/
def effect? (sys : System) (m : Move) : Option (Effect Answer) :=
  (sys.sessions[m.who]?).map fun s => s.perform sys.cluster m.plan m.ticket m.operation

/-- The system after a move. -/
def step (sys : System) (m : Move) : System :=
  match sys.effect? m with
  | some e => sys.settle m.who e
  | none => sys

end System

end QuorumStore
