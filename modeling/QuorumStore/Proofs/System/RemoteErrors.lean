import QuorumStore.Network
import QuorumStore.Proofs.Session.RemoteErrors
import QuorumStore.Proofs.System.Run

/-!
# Errors That Replicas Report, over Whole Runs

A run in which the transport raises some of the errors that replicas report goes
the way of one in which it raises others.

The two runs have the same operations in the same order, and go on side by side
with one system: every move has the same effect in both. Calls that go over a
connection are a case of it. What is received there is what the peer wrote with
its error raised.

## Main definitions

* `Event.Raises`: The same event, but that some errors are raised.
* `Moment.outcome`: The system that a move found, and the move's effect.

## Theorems

* `System.advance_of_raises`: One event.
* `Wire.ofResult_receive`: Errors are raised on a connection.
* `System.run_of_raises`: Runs and their moves.
-/

namespace QuorumStore

/-- The second event is the first, but that the transport raises some of the
    errors that are reported. -/
inductive Event.Raises : Event → Event → Prop
  | move (m : Move) (plan : Endpoint → Plan)
      (hraises : ∀ e, plan e = m.plan e ∨ plan e = (m.plan e).raised) :
      Raises (.move m) (.move { m with plan := plan })
  | retune (who : Nat) (read write : Option Level) :
      Raises (.retune who read write) (.retune who read write)

/-- The system that a move found, and the effect of the move if anybody makes
    it: what it comes to, the session, the cluster and the counts behind it, and
    how long it takes. -/
def Moment.outcome (m : Moment) : System × Option (Effect Answer) :=
  (m.system, m.system.effect? m.move)

/-- On a connection the transport raises the error that the peer reports. -/
theorem Wire.ofResult_receive {bs : List UInt8} {r : Response} {more : List Response}
    {fault : Option LineError} (h : readMessages Response.parse bs = (r :: more, fault))
    (elapsed : Nat) :
    Plan.ofResult elapsed (receive bs) = (Plan.ofResult elapsed (.ok r)).raised := by
  rw [receive, h]
  cases r <;> rfl

namespace System

/-- A move has the same effect whoever notices errors. -/
theorem effect?_of_raises (sys : System) (m : Move) {plan : Endpoint → Plan}
    (hraises : ∀ e, plan e = m.plan e ∨ plan e = (m.plan e).raised) :
    sys.effect? { m with plan := plan } = sys.effect? m := by
  simp only [effect?, Session.perform_of_raises hraises]

/-- An event leads to the same system whoever notices errors. -/
theorem advance_of_raises (sys : System) {x y : Event} (h : x.Raises y) :
    sys.advance y = sys.advance x := by
  cases h with
  | move m plan hraises => simp only [advance, step, effect?_of_raises sys m hraises]
  | retune who read write => rfl

/-- A run in which some of the errors that replicas report are raised by the
    transport instead of handed on leads to the same sessions, the same cluster
    and the same counts, and every move on the way finds the same system and has
    the same effect: it comes to the same, with the same acknowledgements or
    responses or for the same reason at the same endpoint, and takes as long. On
    a connection all of them are raised. -/
theorem run_of_raises {es es' : List Event} (h : List.Forall₂ Event.Raises es es')
    (sys : System) :
    sys.run es' = sys.run es ∧
    (sys.chronicle es').map Moment.outcome = (sys.chronicle es).map Moment.outcome ∧
    ∀ bs r more fault, Wire.readMessages Response.parse bs = (r :: more, fault) → ∀ elapsed,
      Plan.ofResult elapsed (Wire.receive bs) = (Plan.ofResult elapsed (.ok r)).raised := by
  refine and_assoc.mp ⟨?_, fun _ _ _ _ hread => Wire.ofResult_receive hread⟩
  -- The two runs go on side by side with one system.
  induction h generalizing sys with
  | nil => exact ⟨rfl, rfl⟩
  | @cons x y es es' hxy _ ih =>
    obtain ⟨hrun, houtcomes⟩ := ih (sys.advance x)
    have hadvance := advance_of_raises sys hxy
    refine ⟨(congrArg (run · es') hadvance).trans hrun, ?_⟩
    cases hxy with
    | retune who read write => exact houtcomes
    | move m plan hraises =>
      have hstep : sys.step { m with plan := plan } = sys.step m := hadvance
      have hmoment : Moment.outcome ⟨sys, { m with plan := plan }⟩ = Moment.outcome ⟨sys, m⟩ :=
        congrArg (Prod.mk sys) (effect?_of_raises sys m hraises)
      rw [chronicle, chronicle, List.map_cons, List.map_cons, hmoment, hstep]
      exact congrArg _ houtcomes

/-- A greeting and a read. One replica is there, the other reports that it is
    full, which is noticed one way or another. -/
def fullReplica (noticed : String → Fate) : List Event :=
  let plan := fun e : Endpoint =>
    ⟨some e.port.toNat, if e.port = 1 then .served else noticed "full"⟩
  [.move ⟨0, .connect, plan, default⟩, .move ⟨0, .get "k", plan, default⟩]

/-- A session over the two replicas, which wants both of them for a read. -/
def fullReplicaStart : System :=
  start [⟨"a", 1⟩, ⟨"a", 2⟩] (standardClients ⟨[⟨"a", 1⟩, ⟨"a", 2⟩], by decide⟩ .all ["n"])

theorem run_of_raises_fullReplica :
    List.Forall₂ Event.Raises (fullReplica fun message => .answered (.error message))
      (fullReplica fun message => .failed (.remote message)) ∧
    fullReplicaStart.run (fullReplica fun message => .failed (.remote message)) =
      fullReplicaStart.run (fullReplica fun message => .answered (.error message)) := by
  have hraises : List.Forall₂ Event.Raises (fullReplica fun message => .answered (.error message))
      (fullReplica fun message => .failed (.remote message)) := by
    refine .cons (.move _ _ fun e => ?_) (.cons (.move _ _ fun e => ?_) .nil) <;>
      by_cases he : e.port = 1 <;> simp [he, Plan.raised, Fate.raised]
  exact ⟨hraises, (run_of_raises hraises fullReplicaStart).1⟩

end System

end QuorumStore
