import QuorumStore.Proofs.Cluster.Asking
import QuorumStore.Proofs.Session.Effects

/-!
# Errors That Replicas Report

An error that a replica reports comes to the same whoever notices it.

There are two places where such an error can be told from an answer. A transport
may hand on every response that it reads, and then the session finds out when
the response is not the one it asked for. Or the transport looks itself and
raises the error, so that the call fails. To say that it does not matter which,
raise the errors of some of the calls, at the moments at which they are due, and
compare.

Whatever a session does with a reply it does through a view of it: the verdict
on a reply to a read or a write, on a greeting, the line of a status report. Each
of these views is blind to the difference. All the rest only ever looks at
replies through them, and at when they come and from where, which has not
changed.

## Main definitions

* `Fate.raised`, `Plan.raised`: The transport raises the error.
* `Reply.Blind`: A view that does not tell who noticed the error.

## Theorems

* `Cluster.view_meet_raised`: A call seen through a blind view.
* `Cluster.fanOut_raised`: The calls of a read or a write.
* `Cluster.view_heard?_raised`: The calls of a greeting or a report.
* `Session.perform_raised`: An operation all of whose errors are raised.
* `Session.perform_of_raises`: An operation some of whose errors are.
-/

namespace QuorumStore

/-- The same fate, but that the transport raises the error that is reported. -/
def Fate.raised : Fate → Fate
  | .answered (.error message) => .failed (.remote message)
  | fate => fate

/-- The same plan, but that the transport raises the error that is reported. -/
def Plan.raised (p : Plan) : Plan := { p with fate := p.fate.raised }

/-- The same call, but that the transport raises the error that is reported. -/
def Call.raised (call : Call) : Call := { call with fate := call.fate.raised }

theorem Fate.raised_raised (fate : Fate) : fate.raised.raised = fate.raised := by
  cases fate with
  | answered r => cases r <;> rfl
  | served | servedUnheard | failed _ | broken => rfl

theorem Plan.raised_raised (p : Plan) : p.raised.raised = p.raised := by
  rw [raised, raised, Fate.raised_raised]

/-- The view does not tell an error that is handed on from one that is raised. -/
def Reply.Blind {β : Type} (view : Reply → β) : Prop :=
  ∀ message, view (.response (.error message)) = view (.error (.remote message))

/-- The calls are the same but for who notices errors. -/
theorem scheduled_raised (plan : Endpoint → Plan) (es : List Endpoint) :
    scheduled (fun e => (plan e).raised) es = (scheduled plan es).map Call.raised := by
  -- Calls are sorted by when they are due, which stays.
  have hsort : ∀ calls : List Call,
      (calls.mergeSort fun a b => decide (a.due ≤ b.due)).map Call.raised =
        (calls.map Call.raised).mergeSort fun a b => decide (a.due ≤ b.due) :=
    fun calls => List.map_mergeSort fun _ _ _ _ => rfl
  rw [scheduled, scheduled, hsort, List.map_filterMap]
  simp only [Option.map_map]
  rfl

namespace Cluster

variable {α β : Type} {request : Request} {view : Reply → β}

/-- A call does the same to the cluster. -/
theorem cluster_meet_raised (c : Cluster) (request : Request) (e : Endpoint) (fate : Fate) :
    (c.meet request e fate.raised).2 = (c.meet request e fate).2 := by
  unfold Fate.raised
  split <;> rfl

/-- A call looks the same through a blind view. -/
theorem view_meet_raised (hview : Reply.Blind view) (c : Cluster) (request : Request)
    (e : Endpoint) (fate : Fate) :
    view (c.meet request e fate.raised).1 = view (c.meet request e fate).1 := by
  unfold Fate.raised
  split
  · exact (hview _).symm
  · rfl

theorem after_raised (c : Cluster) (calls : List Call) :
    c.after request (calls.map Call.raised) = c.after request calls := by
  induction calls generalizing c with
  | nil => rfl
  | cons call calls ih =>
    -- The calls behind this one find the same cluster.
    rw [List.map_cons, after_cons, after_cons, ih]
    exact congrArg (after · request calls) (cluster_meet_raised c request call.endpoint call.fate)

/-- Replies are judged the same by a verdict that is blind. -/
theorem judge_arrivals_raised {accept : Response → Except CallError α}
    (haccept : Reply.Blind (Reply.judge accept)) (c : Cluster) (calls : List Call) :
    (c.arrivals request (calls.map Call.raised)).map (Arrival.judge accept) =
      (c.arrivals request calls).map (Arrival.judge accept) := by
  induction calls generalizing c with
  | nil => rfl
  | cons call calls ih =>
    rw [List.map_cons, arrivals_cons, arrivals_cons, List.map_cons, List.map_cons, ih]
    congr 1
    · exact congrArg (Completion.mk call.due call.endpoint) (view_meet_raised haccept c request _ _)
    · exact congrArg (fun d => (arrivals d request calls).map (Arrival.judge accept))
        (cluster_meet_raised c request call.endpoint call.fate)

variable {plan : Endpoint → Plan} {replicas : ReplicaSet}

theorem timely_raised (plan : Endpoint → Plan) (es : List Endpoint) (deadline : Nat) :
    timely (fun e => (plan e).raised) es deadline = (timely plan es deadline).map Call.raised := by
  rw [timely, timely, scheduled_raised, List.filter_map]
  rfl

/-- The calls of a read or a write end the same way and leave the same behind. -/
theorem fanOut_raised {accept : Response → Except CallError α} {needed deadline : Nat}
    (haccept : Reply.Blind (Reply.judge accept)) (c : Cluster) :
    c.fanOut (fun e => (plan e).raised) replicas request needed deadline accept =
      c.fanOut plan replicas request needed deadline accept := by
  have houtcome : (c.fanOut (fun e => (plan e).raised) replicas request needed deadline accept).1 =
      (c.fanOut plan replicas request needed deadline accept).1 := by
    rw [fanOut_outcome, fanOut_outcome, completions, completions, timely_raised,
      judge_arrivals_raised haccept]
  refine Prod.ext houtcome ?_
  -- They end alike, so the same calls are abandoned.
  rw [fanOut_cluster, fanOut_cluster, houtcome, timely_raised, List.filter_map]
  exact after_raised c _

/-- What is heard of a replica looks the same through a blind view. -/
theorem view_heard?_raised {view : Option Reply → β}
    (hview : Reply.Blind fun reply => view (some reply)) (c : Cluster) (limit : Nat)
    (e : Endpoint) :
    view (c.heard? (fun e => (plan e).raised) request limit e) =
      view (c.heard? plan request limit e) := by
  unfold heard? Plan.raised
  dsimp only
  cases (plan e).due with
  | none => rfl
  | some t =>
    by_cases ht : t ≤ limit
    · simp only [if_pos ht]
      exact view_meet_raised hview c request e (plan e).fate
    · simp only [if_neg ht]

theorem cluster_askEach_raised (c : Cluster) (limit : Nat) :
    (c.askEach (fun e => (plan e).raised) replicas request limit).2.1 =
      (c.askEach plan replicas request limit).2.1 := by
  simp only [askEach, askEach_calls, timely_raised]
  exact after_raised c _

end Cluster

namespace Session

variable {plan : Endpoint → Plan} {limit : Nat}

theorem blind_acceptValue : Reply.Blind (Reply.judge acceptValue) := fun _ => rfl

theorem blind_acceptAck (operation : Kind) : Reply.Blind (Reply.judge (acceptAck operation)) :=
  fun _ => rfl

theorem blind_greeting (limit : Nat) : Reply.Blind fun reply => greeting limit (some reply) :=
  fun _ => rfl

theorem blind_nodeReport (e : Endpoint) : Reply.Blind fun reply => nodeReport e (some reply) :=
  fun _ => rfl

theorem get_raised (s : Session) (c : Cluster) (key : String) :
    s.get c (fun e => (plan e).raised) key = s.get c plan key := by
  simp only [get, Cluster.fanOut_raised blind_acceptValue]

theorem write_raised (s : Session) (c : Cluster) (ticket : Ticket) (key : String)
    (value : Option String) :
    s.write c (fun e => (plan e).raised) ticket key value = s.write c plan ticket key value := by
  simp only [write, Cluster.fanOut_raised (blind_acceptAck _)]

theorem greetings_raised (c : Cluster) (replicas : ReplicaSet) :
    greetings limit (c.askEach (fun e => (plan e).raised) replicas .ping limit).1 =
      greetings limit (c.askEach plan replicas .ping limit).1 := by
  rw [Cluster.askEach_replies, Cluster.askEach_replies, greetings, greetings, List.foldl_map,
    List.foldl_map]
  simp only [Cluster.view_heard?_raised (blind_greeting limit)]

theorem connect_raised (s : Session) (c : Cluster) :
    s.connect c (fun e => (plan e).raised) = s.connect c plan := by
  simp only [connect, greetings_raised, Cluster.cluster_askEach_raised]
  -- What is left is the time, which depends on when the calls are due.
  rfl

theorem stat_raised (s : Session) (c : Cluster) :
    s.stat c (fun e => (plan e).raised) = s.stat c plan := by
  have hlines : ∀ replicas limit,
      (c.askEach (fun e => (plan e).raised) replicas .stat limit).1.map
          (fun r => nodeReport r.1 r.2) =
        (c.askEach plan replicas .stat limit).1.map fun r => nodeReport r.1 r.2 := by
    intro replicas limit
    rw [Cluster.askEach_replies, Cluster.askEach_replies, List.map_map, List.map_map]
    exact List.map_congr_left fun e _ => Cluster.view_heard?_raised (blind_nodeReport e) c limit e
  simp only [stat, hlines, Cluster.cluster_askEach_raised]
  rfl

/-- An operation all of whose errors are raised has the same effect. -/
theorem perform_raised (s : Session) (c : Cluster) (ticket : Ticket) (op : Operation) :
    s.perform c (fun e => (plan e).raised) ticket op = s.perform c plan ticket op := by
  cases op with
  | connect => exact congrArg (Effect.map Answer.reached) (connect_raised s c)
  | get key => exact congrArg (Effect.map Answer.found) (get_raised s c key)
  | put key value => exact congrArg (Effect.map Answer.written) (write_raised s c ticket key _)
  | delete key => exact congrArg (Effect.map Answer.written) (write_raised s c ticket key _)
  | stat => exact congrArg (Effect.map Answer.report) (stat_raised s c)

/-- An operation some of whose errors are raised has the same effect. -/
theorem perform_of_raises {plan' : Endpoint → Plan}
    (hraises : ∀ e, plan' e = plan e ∨ plan' e = (plan e).raised) (s : Session) (c : Cluster)
    (ticket : Ticket) (op : Operation) :
    s.perform c plan' ticket op = s.perform c plan ticket op := by
  -- With the rest of the errors raised the two plans are one.
  have hsame : (fun e => (plan' e).raised) = fun e => (plan e).raised := by
    funext e
    rcases hraises e with h | h
    · rw [h]
    · rw [h, Plan.raised_raised]
  rw [← @perform_raised plan', hsame, perform_raised]

end Session

end QuorumStore
