import QuorumStore.Shell
import QuorumStore.Simulation.Disturbance

/-!
# Simulations

A cluster and its sessions, with everything that can happen to them.

A simulation is a system together with the disturbances of each session and
the rules of each replica. Whatever happens in it is an `Action`, taken by one
of the sessions: an operation, a line typed into a shell, other levels, a
change to the session's disturbance, or something that is done to a replica
behind everybody's back. Operations and lines go through `System.step`'s own
effect, under the plan that disturbances and rules determine, so what is true
of systems under arbitrary plans is true of simulations.

There is no clock and there are no identifiers: every write carries the same
ticket. Neither decides anything.

## Main definitions

* `Simulation`: A system, its disturbances and its rules.
* `Simulation.plan`: The plan of a session's calls of a kind.
* `Action`: What can happen.
* `Report`: What comes of it.
* `Simulation.act`: An action taken.
-/

namespace QuorumStore

/-- The calls handled beyond those handled before. -/
def Handled.since (now before : Handled) : Handled :=
  ⟨now.ping - before.ping, now.get - before.get, now.put - before.put,
   now.delete - before.delete, now.stat - before.stat⟩

/-- A system, with what goes wrong in it. -/
structure Simulation where
  system : System
  /-- The disturbance of each session. -/
  disturbances : List Simulation.Disturbance
  /-- The rules of each replica. -/
  rules : Table Endpoint (List Simulation.Rule)

namespace Simulation

/-- A session at its start: what it is told, and what disturbs it. -/
structure Client where
  settings : Settings
  placement : Placement
  disturbance : Disturbance

/-- Sessions at their start over replicas that hold nothing. -/
def start (replicas : List Endpoint) (clients : List Client) : Simulation :=
  ⟨⟨Cluster.fresh replicas, clients.map fun x => Session.start x.settings x.placement, {}⟩,
   clients.map (·.disturbance), Table.empty⟩

/-- The ticket of every write. -/
def ticket : Ticket := ⟨⟨0, 0⟩, ""⟩

/-- A session's disturbance. -/
def disturbance (sim : Simulation) (who : Nat) : Disturbance :=
  (sim.disturbances[who]?).getD {}

/-- What the rules plan for a call of a kind to an endpoint. -/
def ruledPlan (sim : Simulation) (kind : Kind) (e : Endpoint) : Plan :=
  match sim.system.cluster.store? e with
  | none => ⟨some 0, .served⟩
  | some _ => Rule.planOf ((sim.rules.get? e).getD []) kind

/-- The plan of a session's calls of a kind. -/
def plan (sim : Simulation) (who : Nat) (kind : Kind) (e : Endpoint) : Plan :=
  (sim.disturbance who).plan (sim.ruledPlan kind e) e

/-- A session's shell in a listing. -/
def shellListing (s : Session) : String := listRecord "Shell" [("coordinator", s.listing)]

/-- The way from a session to its replicas in a listing, which tells
    nothing. -/
def wayListing : String := "ChaosTransport { .. }"

/-- What can happen. -/
inductive Action where
  | perform (op : Operation)
  /-- A line is typed into the session's shell. -/
  | type (line : String)
  /-- Other levels; those that are not given stay. -/
  | setLevels (read write : Option Level)
  /-- The disturbance changes. -/
  | disturb (change : Disturbance → Disturbance)
  /-- A replica gets other rules. -/
  | setRules (e : Endpoint) (rules : List Rule)
  /-- A replica is offered a version. -/
  | seed (e : Endpoint) (key : String) (v : Version)

/-- What comes of an action. -/
inductive Report where
  | answer (r : Except OpError Answer)
  | shell (r : Shell.Reply)
  | levels (read write : Level)
  /-- Whether a replica took the version it was offered. -/
  | taken (b : Bool)
  | done

/-- What an observer notes of an action. -/
structure Observed where
  report : Report
  elapsed : Nat := 0
  counters : Counters := {}
  handled : Handled := {}

/-- The simulation behind an operation's effect, and what is noted of it. -/
def settle (sim : Simulation) (who : Nat) (report : Report) (e : Effect Answer) :
    Observed × Simulation :=
  (⟨report, e.elapsed, e.counters, e.cluster.handled.since sim.system.cluster.handled⟩,
   { sim with system := sim.system.settle who e })

/-- An operation of a session. -/
def perform (sim : Simulation) (who : Nat) (s : Session) (op : Operation) :
    Observed × Simulation :=
  let e := s.perform sim.system.cluster (sim.plan who op.kind) ticket op
  sim.settle who (.answer e.result) e

/-- A line of a session's shell. -/
def type (sim : Simulation) (who : Nat) (s : Session) (line : String) : Observed × Simulation :=
  match Shell.execute s sim.system.cluster (sim.plan who) ticket line with
  | (reply, some e) => sim.settle who (.shell reply) e
  | (reply, none) => ({ report := .shell reply }, sim)

/-- Other levels for a session. -/
def setLevels (sim : Simulation) (who : Nat) (s : Session) (read write : Option Level) :
    Observed × Simulation :=
  let s := s.setLevels read write
  let sessions := sim.system.sessions.set who s
  ({ report := .levels s.settings.readLevel s.settings.writeLevel },
   { sim with system := { sim.system with sessions } })

/-- Another disturbance for a session. -/
def disturb (sim : Simulation) (who : Nat) (change : Disturbance → Disturbance) :
    Observed × Simulation :=
  ({ report := .done },
   { sim with disturbances := sim.disturbances.set who (change (sim.disturbance who)) })

/-- Other rules for a replica. -/
def setRules (sim : Simulation) (e : Endpoint) (rules : List Rule) : Observed × Simulation :=
  ({ report := .done }, { sim with rules := sim.rules.insert e rules })

/-- A version is offered to a replica; none is there to take it at an endpoint
    without one. -/
def seed (sim : Simulation) (e : Endpoint) (key : String) (v : Version) :
    Observed × Simulation :=
  match sim.system.cluster.store? e with
  | none => ({ report := .taken false }, sim)
  | some s =>
    let cluster := sim.system.cluster.setStore e (s.put key v)
    ({ report := .taken (s.accepts key v) }, { sim with system := { sim.system with cluster } })

/-- An action taken by a session; nothing happens if there is no such
    session. -/
def act (sim : Simulation) (who : Nat) (a : Action) : Option (Observed × Simulation) :=
  (sim.system.sessions[who]?).map fun s =>
    match a with
    | .perform op => sim.perform who s op
    | .type line => sim.type who s line
    | .setLevels read write => sim.setLevels who s read write
    | .disturb change => sim.disturb who change
    | .setRules e rules => sim.setRules e rules
    | .seed e key v => sim.seed e key v

end Simulation

end QuorumStore
