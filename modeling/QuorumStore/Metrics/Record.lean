import QuorumStore.Operation

/-!
# Records

What is noted of the operations of a client.

Every operation that is carried out is counted and timed, and so is every call
it makes. A call that is abandoned counts as made but not as failed: nobody
has seen how it ended, and its time is that of the operation. Greeting the
replicas is not an operation in this sense, though its calls are calls.

## Main definitions

* `CallRecord`: What is noted of a call.
* `Record`: What is noted altogether.
* `Record.ofEffect`: What is noted of one operation.
-/

namespace QuorumStore

/-- What is noted of a call; the time is in milliseconds. -/
structure CallRecord where
  kind : Kind
  failed : Bool
  time : Nat
  deriving DecidableEq, Repr

/-- What is noted altogether. -/
structure Record where
  counters : Counters := {}
  calls : List CallRecord := []
  /-- The operations with their times in milliseconds. -/
  operations : List (Kind × Nat) := []
  deriving DecidableEq, Repr, Inhabited

namespace Record

/-- Two records together. -/
def append (a b : Record) : Record :=
  ⟨a.counters.add b.counters, a.calls ++ b.calls, a.operations ++ b.operations⟩

/-- Whether a caller sees a failure. -/
def hasFailed : Reply → Bool
  | .response _ => false
  | .error _ | .broken => true

/-- What is noted of the calls to some replicas, of which those have been seen
    to end that arrived. -/
def callsOf (kind : Kind) (elapsed : Nat) (arrived : List Arrival) (endpoints : List Endpoint) :
    List CallRecord :=
  endpoints.map fun e =>
    match arrived.find? fun a => a.endpoint == e with
    | some a => ⟨kind, hasFailed a.reply, a.due⟩
    | none => ⟨kind, false, elapsed⟩

/-- What is noted of an operation that a session carries out on a cluster. -/
def ofEffect {α : Type} (s : Session) (c : Cluster) (plan : Endpoint → Plan) (ticket : Ticket)
    (op : Operation) (e : Effect α) : Record :=
  let calls := match s.outgoing? ticket op with
    | none => []
    | some (request, replicas) =>
      let arrived := (c.arrivals request (scheduled plan replicas.endpoints)).filter
        fun a => decide (a.due ≤ e.elapsed)
      callsOf request.kind e.elapsed arrived replicas.endpoints
  let operations := match op with
    | .connect => []
    | op => if s.connected then [(op.kind, e.elapsed)] else []
  ⟨e.counters, calls, operations⟩

end Record

end QuorumStore
