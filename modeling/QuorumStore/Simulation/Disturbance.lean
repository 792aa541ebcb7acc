import QuorumStore.Cluster
import QuorumStore.Duration

/-!
# Disturbances

What may come between a session and its replicas.

A call that a session makes passes two places where something can go wrong. On
the session's own side, the way to a replica can be cut off, so that a call
fails at once, or swallow the call without a word; every call can be slowed
down, and every call can be made to fail after that. At the replica, a list of
rules decides what becomes of a call of some kind: after a delay it meets a
fate, or it never does. The first rule that covers the kind applies; without
one the call is served at once. A rule is attached to a replica, so a call to
an endpoint where there is none fails whatever rules there are.

Nothing here does anything. Disturbances and rules only determine the plan of a
call; the cluster carries it out.

## Main definitions

* `Disturbance`: What goes wrong on a session's side.
* `Rule`: What becomes of some calls at a replica.
* `Rule.planOf`: The plan of a call under a list of rules.
* `Disturbance.plan`: The plan of a call that has to pass a disturbance first.
-/

namespace QuorumStore

namespace Simulation

/-- What goes wrong on a session's side. -/
structure Disturbance where
  /-- Calls to these fail at once. -/
  cut : List Endpoint := []
  /-- Calls to these are never answered. -/
  silent : List Endpoint := []
  /-- How many milliseconds every other call is held up. -/
  latency : Nat := 0
  /-- Every call fails once it has been held up. -/
  failing : Bool := false
  deriving DecidableEq, Repr, Inhabited

/-- What becomes of some calls at a replica. -/
structure Rule where
  /-- The kinds of call it covers; all of them if there is no list. -/
  kinds : Option (List Kind)
  delay : Nat
  /-- The fate of the call; a call without one is never answered. -/
  fate : Option Fate
  deriving DecidableEq, Repr

namespace Rule

/-- The rule covers calls of a kind. -/
def covers (r : Rule) (kind : Kind) : Bool :=
  match r.kinds with
  | none => true
  | some kinds => kinds.contains kind

/-- The plan of a call that a rule covers. -/
def plan (r : Rule) : Plan :=
  match r.fate with
  | some fate => ⟨some r.delay, fate⟩
  | none => ⟨none, .served⟩

/-- The plan of a call of a kind under a list of rules. -/
def planOf (rules : List Rule) (kind : Kind) : Plan :=
  match rules.find? (·.covers kind) with
  | some r => r.plan
  | none => ⟨some 0, .served⟩

end Rule

namespace Disturbance

/-- A disturbance in a listing, which leaves out the endpoints. Calls fail
    always or never, and nothing is held up by chance. -/
def listing (d : Disturbance) : String :=
  listRecord "ChaosConfig"
    [("failure_rate", if d.failing then "1.0" else "0.0"),
     ("latency", Duration.spell d.latency), ("jitter", Duration.spell 0)]

/-- The failure of a call to an endpoint that is cut off. -/
def refused : CallError := .connection "chaos: endpoint marked as failed"

/-- The failure of a call while all calls fail. -/
def dropped : CallError := .connection "chaos: random failure"

/-- The plan of a call to an endpoint that has to pass a disturbance before it
    meets the plan beyond. -/
def plan (d : Disturbance) (beyond : Plan) (e : Endpoint) : Plan :=
  if d.cut.contains e then ⟨some 0, .failed refused⟩
  else if d.silent.contains e then ⟨none, .served⟩
  else if d.failing then ⟨some d.latency, .failed dropped⟩
  else beyond.later d.latency

/-- Cut an endpoint off. -/
def cutOff (d : Disturbance) (e : Endpoint) : Disturbance := { d with cut := e :: d.cut }

/-- Let an endpoint fall silent. -/
def silence (d : Disturbance) (e : Endpoint) : Disturbance := { d with silent := e :: d.silent }

/-- Undo both for an endpoint. -/
def recover (d : Disturbance) (e : Endpoint) : Disturbance :=
  { d with cut := d.cut.filter (· != e), silent := d.silent.filter (· != e) }

end Disturbance

end Simulation

end QuorumStore
