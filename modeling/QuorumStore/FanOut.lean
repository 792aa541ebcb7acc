import QuorumStore.Cluster
import QuorumStore.Level

/-!
# Fanning Out

Asking several replicas at once, and stopping as soon as the outcome is
certain.

A session needs a number of accepted replies out of as many as it asked for.
It looks at the replies in the order in which they come and keeps a tally.
The operation succeeds with the last reply it needed. It fails as soon as so
many calls have failed that the rest cannot make up the number. If neither has
happened by the deadline, it has timed out. Calls that are not due by then are
abandoned and have no effect; calls due at the very moment the outcome becomes
certain have theirs, since nobody has looked at the replies yet.

`tallyUp` is the decision alone: a function of the replies, each with its
time. It knows nothing of replicas, so what it decides can be stated of any
sequence of replies whatever. `Cluster.fanOut` lets the calls loose on a
cluster and hands the arrivals to it.

## Main definitions

* `Judged`: What a reply is worth.
* `Tally`: The replies so far.
* `tallyUp`: How a sequence of replies ends.
* `Ending`: The ways in which it can.
* `Cluster.fanOut`: The calls of an operation and their outcome.
-/

namespace QuorumStore

/-- What a reply is worth to the operation. -/
inductive Judged (α : Type) where
  | accepted (a : α)
  /-- A failure with a cause. -/
  | refused (e : CallError)
  /-- A failure that left no cause. -/
  | broken
  deriving DecidableEq, Repr

/-- A reply that has been judged. -/
structure Completion (α : Type) where
  due : Nat
  endpoint : Endpoint
  judged : Judged α
  deriving DecidableEq, Repr

/-- The replies so far: those accepted, how many calls failed, and the last
    failure that had a cause. -/
structure Tally (α : Type) where
  accepted : List (Endpoint × α) := []
  failed : Nat := 0
  lastFailure : Option (Endpoint × CallError) := none
  deriving DecidableEq, Repr

/-- Where an operation stands. -/
inductive Phase where
  | waiting
  | satisfied
  | unreachable
  deriving DecidableEq, Repr

/-- How an operation ends. -/
inductive Ending where
  /-- Enough replies were accepted. -/
  | satisfied
  /-- Too many calls failed. -/
  | unreachable
  /-- The deadline passed. -/
  | timedOut
  /-- All calls were over and neither had happened. -/
  | exhausted
  deriving DecidableEq, Repr

namespace Tally

/-- The tally after one more reply. -/
def record {α : Type} (t : Tally α) (e : Endpoint) : Judged α → Tally α
  | .accepted a => { t with accepted := t.accepted ++ [(e, a)] }
  | .refused err => { t with failed := t.failed + 1, lastFailure := some (e, err) }
  | .broken => { t with failed := t.failed + 1 }

/-- Where an operation stands that needs so many replies out of a total. -/
def phase {α : Type} (t : Tally α) (total needed : Nat) : Phase :=
  if needed ≤ t.accepted.length then .satisfied
  else if total - t.failed < needed then .unreachable
  else .waiting

end Tally

/-- How an operation ended, with what tally, and when. -/
structure Outcome (α : Type) where
  ending : Ending
  tally : Tally α
  elapsed : Nat
  deriving DecidableEq, Repr

/-- How a sequence of replies ends. `open` calls are not over yet, and it is
    `now`. -/
def tallyFrom {α : Type} (total needed deadline : Nat) (pending : Nat) (now : Nat)
    (t : Tally α) (cs : List (Completion α)) : Outcome α :=
  match t.phase total needed with
  | .satisfied => ⟨.satisfied, t, now⟩
  | .unreachable => ⟨.unreachable, t, now⟩
  | .waiting =>
    match cs with
    | [] => if pending = 0 then ⟨.exhausted, t, now⟩ else ⟨.timedOut, t, deadline⟩
    | c :: cs =>
      if c.due < deadline then
        tallyFrom total needed deadline (pending - 1) c.due (t.record c.endpoint c.judged) cs
      else ⟨.timedOut, t, deadline⟩

/-- How the replies to a number of calls end, in the order in which they
    come. -/
def tallyUp {α : Type} (total needed deadline : Nat) (cs : List (Completion α)) : Outcome α :=
  tallyFrom total needed deadline total 0 {} cs

/-- Why an operation failed. -/
inductive Shortfall where
  /-- Too many calls failed; this was the last. -/
  | failure (e : Endpoint) (cause : CallError)
  /-- There were too few replies. -/
  | tooFew (got : Nat)
  deriving DecidableEq, Repr

/-- What an operation that ended so comes to: the accepted replies, or why
    there are not enough. -/
def Outcome.result {α : Type} (o : Outcome α) : Except Shortfall (List (Endpoint × α)) :=
  match o.ending with
  | .satisfied => .ok o.tally.accepted
  | .timedOut => .error (.tooFew o.tally.accepted.length)
  | .unreachable | .exhausted =>
    match o.tally.lastFailure with
    | some (e, cause) => .error (.failure e cause)
    | none => .error (.tooFew o.tally.accepted.length)

/-- What a reply is worth: a response is for `accept` to judge. -/
def Reply.judge {α : Type} (accept : Response → Except CallError α) : Reply → Judged α
  | .response r =>
    match accept r with
    | .ok a => .accepted a
    | .error e => .refused e
  | .error e => .refused e
  | .broken => .broken

/-- An arrival that has been judged. -/
def Arrival.judge {α : Type} (accept : Response → Except CallError α) (a : Arrival) :
    Completion α :=
  ⟨a.due, a.endpoint, a.reply.judge accept⟩

/-- The calls of an operation, let loose on a cluster: how it ends, and the
    cluster behind it. Calls that are not due by then are cut off, and have no
    effect later either. -/
def Cluster.fanOut {α : Type} (c : Cluster) (plan : Endpoint → Plan) (replicas : ReplicaSet)
    (request : Request) (needed deadline : Nat) (accept : Response → Except CallError α) :
    Outcome α × Cluster :=
  let calls := (scheduled plan replicas.endpoints).filter fun call => decide (call.due < deadline)
  let completions := (c.arrivals request calls).map (Arrival.judge accept)
  let outcome := tallyUp replicas.size needed deadline completions
  (outcome, c.after request (calls.filter fun call => decide (call.due ≤ outcome.elapsed)))

/-- Asking every replica for itself, each with the same limit: the reply of
    each that came within it, the cluster behind them, and how long the
    slowest took. -/
def Cluster.askEach (c : Cluster) (plan : Endpoint → Plan) (replicas : ReplicaSet)
    (request : Request) (limit : Nat) : List (Endpoint × Option Reply) × Cluster × Nat :=
  let calls := (scheduled plan replicas.endpoints).filter fun call => decide (call.due ≤ limit)
  let arrivals := c.arrivals request calls
  let replies := replicas.endpoints.map fun e =>
    (e, (arrivals.find? fun a => a.endpoint == e).map (·.reply))
  let elapsed := replicas.endpoints.foldl (fun t e =>
    max t (match (plan e).due with
      | some due => min due limit
      | none => limit)) 0
  (replies, c.after request calls, elapsed)

end QuorumStore
