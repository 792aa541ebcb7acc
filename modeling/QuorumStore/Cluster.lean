import QuorumStore.Replica
import QuorumStore.ReplicaSet

/-!
# Clusters

The replicas together, and what becomes of the calls made to them.

A session calls several replicas at once, and every call meets its own fate:
it is handled, it is handled and the response is lost, something other than
the replica answers it, it fails, it breaks off. It does so after its own
delay, or never. A `Plan` says which, for one call. Given the plans of the
calls that start together, all that happens to the replicas is determined:
the calls take effect in the order in which they are due, those due together
in the order of the replica set. `arrivals` is what the session gets to see of
it and `after` is what it does to the cluster; the two go through the same
calls in the same order.

A cluster counts the calls that its replicas handle, by kind.

## Main definitions

* `Fate`, `Plan`: What becomes of a call, and when.
* `Reply`: What the caller sees of it.
* `Cluster`: The replicas by endpoint.
* `Cluster.meet`: The effect of a fate.
* `scheduled`: The calls that are ever due, in the order in which they are.
* `Cluster.arrivals`, `Cluster.after`: What the calls bring and leave behind.
-/

namespace QuorumStore

/-- What becomes of a call when it is due. -/
inductive Fate where
  /-- The replica handles the request and its response arrives. -/
  | served
  /-- The replica handles the request and the response is lost. -/
  | servedUnheard
  /-- A response arrives that no replica gave. -/
  | answered (r : Response)
  /-- The call fails before a replica handles it. -/
  | failed (e : CallError)
  /-- The call breaks off on the caller's side. -/
  | broken
  deriving DecidableEq, Repr, Inhabited

/-- What becomes of a call, and after how many milliseconds; a call that is
    never due is never answered. -/
structure Plan where
  due : Option Nat
  fate : Fate
  deriving DecidableEq, Repr, Inhabited

/-- The same plan, so much later. -/
def Plan.later (p : Plan) (delay : Nat) : Plan := { p with due := p.due.map (delay + ·) }

/-- What the caller sees of a call. -/
inductive Reply where
  | response (r : Response)
  | error (e : CallError)
  | broken
  deriving DecidableEq, Repr, Inhabited

/-- A call that is due at some time. -/
structure Call where
  due : Nat
  endpoint : Endpoint
  fate : Fate
  deriving DecidableEq, Repr

/-- A reply and when it came from where. -/
structure Arrival where
  due : Nat
  endpoint : Endpoint
  reply : Reply
  deriving DecidableEq, Repr

/-- How many calls of each kind the replicas have handled. -/
structure Handled where
  ping : Nat := 0
  get : Nat := 0
  put : Nat := 0
  delete : Nat := 0
  stat : Nat := 0
  deriving DecidableEq, Repr, Inhabited

/-- One more call of a kind. -/
def Handled.count (h : Handled) : Kind → Handled
  | .ping => { h with ping := h.ping + 1 }
  | .get => { h with get := h.get + 1 }
  | .put => { h with put := h.put + 1 }
  | .delete => { h with delete := h.delete + 1 }
  | .stat => { h with stat := h.stat + 1 }

/-- The replicas by endpoint, and the calls they have handled. -/
structure Cluster where
  stores : Table Endpoint Store
  handled : Handled
  deriving DecidableEq, Repr, Inhabited

/-- Every call whose plan makes it due, in the order in which they are due;
    those due together stay in the order of the endpoints. -/
def scheduled (plan : Endpoint → Plan) (endpoints : List Endpoint) : List Call :=
  (endpoints.filterMap fun e =>
    (plan e).due.map fun t => ⟨t, e, (plan e).fate⟩).mergeSort fun a b => decide (a.due ≤ b.due)

namespace Cluster

/-- Replicas at the given endpoints that hold nothing. -/
def fresh (endpoints : List Endpoint) : Cluster :=
  ⟨Table.ofList (endpoints.map fun e => (e, Store.empty)), {}⟩

/-- The store of a replica. -/
def store? (c : Cluster) (e : Endpoint) : Option Store := c.stores.get? e

/-- Put a store in the place of a replica's. -/
def setStore (c : Cluster) (e : Endpoint) (s : Store) : Cluster :=
  { c with stores := c.stores.insert e s }

/-- A replica handles a request, if there is one at the endpoint. -/
def serve (c : Cluster) (request : Request) (e : Endpoint) : Option (Response × Cluster) :=
  match c.store? e with
  | none => none
  | some s =>
    let (response, s) := s.handle request
    some (response, { c.setStore e s with handled := c.handled.count request.kind })

/-- The failure of a call to an endpoint without a replica. -/
def nobody : CallError := .connection "unknown endpoint"

/-- The failure of a call whose response is lost. -/
def unheard : CallError := .protocol "connection closed before reply"

/-- A call meets its fate: what the caller sees, and the cluster behind it. -/
def meet (c : Cluster) (request : Request) (e : Endpoint) (fate : Fate) : Reply × Cluster :=
  match fate with
  | .served =>
    match c.serve request e with
    | some (response, c) => (.response response, c)
    | none => (.error nobody, c)
  | .servedUnheard =>
    match c.serve request e with
    | some (_, c) => (.error unheard, c)
    | none => (.error nobody, c)
  | .answered r => (.response r, c)
  | .failed err => (.error err, c)
  | .broken => (.broken, c)

/-- The replies to calls that take effect one after another. -/
def arrivals (c : Cluster) (request : Request) : List Call → List Arrival
  | [] => []
  | call :: calls =>
    let (reply, c) := c.meet request call.endpoint call.fate
    ⟨call.due, call.endpoint, reply⟩ :: arrivals c request calls

/-- The cluster behind calls that take effect one after another. -/
def after (c : Cluster) (request : Request) (calls : List Call) : Cluster :=
  calls.foldl (fun c call => (c.meet request call.endpoint call.fate).2) c

end Cluster

end QuorumStore
