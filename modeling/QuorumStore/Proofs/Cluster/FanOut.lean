import QuorumStore.Proofs.Cluster.Calls
import QuorumStore.Proofs.FanOut.Tally

/-!
# Fanning Out over a Cluster

What comes of the calls of an operation, said endpoint by endpoint.

`tallyUp` decides over a sequence of replies, and `arrivals` says what the
replies are. Put together they say what an operation rests on, without a word
about the order in which anything happened: an operation that succeeds has
exactly as many replies as it needs, and each of them is the answer of another
replica of the set, which was due in time. The converse is what makes such a
statement worth having. If enough replicas answer in time the operation does
succeed.

A call leaves its effect behind if it was due by the time the operation ended.
So a replica whose answer was accepted has handled the request.

`holds?` is how the rest of the theory looks at a cluster: the version that
the replica at an endpoint holds under a key. Only a request that offers a
version of that key can change it, and what is there afterwards covers what
was offered.

## Main definitions

* `Plan.lands`: A call reaches its replica by the end of an operation.
* `Cluster.answer?`: What an endpoint answers in time.
* `Cluster.timely`: The calls that are due before the deadline.
* `Cluster.completions`: Their replies, judged.
* `Request.offers?`: The version of a key that a request carries.
* `Cluster.holds?`: The version that a replica holds under a key.
* `Cluster.facet`: The same for all endpoints, with where there is a replica.

## Theorems

* `Cluster.answer?_of_served`, `Cluster.answer?_of_honest`: Which answers come
  from the replicas.
* `Cluster.fanOut_replies`: What a successful fan-out rests on.
* `Cluster.fanOut_succeeds`: Enough answers make a fan-out succeed.
* `Cluster.store?_fanOut`: What an operation leaves at each replica.
* `Cluster.facet_after`, `Cluster.holds?_after`: A request leaves other keys
  alone.
* `Cluster.holds?_fanOut_offer`: What an offered version leaves behind.
-/

namespace QuorumStore

/-- A call with this plan reaches its replica before the deadline, and by the
    end of the operation. -/
def Plan.lands (p : Plan) (deadline elapsed : Nat) : Bool :=
  p.fate.handled && p.due.any fun t => decide (t < deadline) && decide (t ≤ elapsed)

theorem Plan.lands_iff {p : Plan} {deadline elapsed : Nat} :
    p.lands deadline elapsed = true ↔
      p.fate.handled = true ∧ ∃ t, p.due = some t ∧ t < deadline ∧ t ≤ elapsed := by
  simp only [lands, Bool.and_eq_true, Option.any_eq_true, decide_eq_true_eq]

namespace Cluster

variable {α : Type} {c : Cluster} {plan : Endpoint → Plan} {replicas : ReplicaSet}
  {request : Request} {needed deadline : Nat} {accept : Response → Except CallError α}

/-- What an endpoint answers that is accepted, if it does so before the
    deadline. -/
def answer? (c : Cluster) (plan : Endpoint → Plan) (request : Request) (deadline : Nat)
    (accept : Response → Except CallError α) (e : Endpoint) : Option α :=
  match (plan e).due with
  | none => none
  | some t =>
    if t < deadline then
      match (c.meet request e (plan e).fate).1.judge accept with
      | .accepted a => some a
      | _ => none
    else none

theorem answer?_eq_some_iff {e : Endpoint} {a : α} :
    c.answer? plan request deadline accept e = some a ↔
      ∃ t r, (plan e).due = some t ∧ t < deadline ∧
        (c.meet request e (plan e).fate).1 = .response r ∧ accept r = .ok a := by
  have hjudge : ∀ reply : Reply, reply.judge accept = .accepted a ↔
      ∃ r, reply = .response r ∧ accept r = .ok a := by
    intro reply
    cases reply with
    | response r => cases h : accept r <;> simp [Reply.judge, h]
    | error err => simp [Reply.judge]
    | broken => simp [Reply.judge]
  unfold answer?
  cases hdue : (plan e).due with
  | none => simp
  | some t =>
    by_cases ht : t < deadline
    · simp only [Option.some.injEq, exists_and_left, exists_eq_left', ht, true_and,
        ← hjudge]
      cases (c.meet request e (plan e).fate).1.judge accept <;> simp
    · simp [ht]

/-- An answer that nothing but a replica would give comes from its store. -/
theorem answer?_of_served {e : Endpoint} {a : α}
    (hgiven : ∀ r, (plan e).fate = .answered r → accept r ≠ .ok a)
    (h : c.answer? plan request deadline accept e = some a) :
    (plan e).fate = .served ∧ ∃ s, c.store? e = some s ∧ accept (s.handle request).1 = .ok a := by
  rcases answer?_eq_some_iff.mp h with ⟨t, r, -, -, hmeet, hr⟩
  rcases response_meet hmeet with ⟨hfate, s, hs, rfl⟩ | hfate
  · exact ⟨hfate, s, hs, hr⟩
  · exact absurd hr (hgiven r hfate)

/-- Where no version and no acknowledgement is made up, an answer of either
    kind comes from the replica's store. -/
theorem answer?_of_honest {e : Endpoint} {a : α} (hhonest : (plan e).Honest)
    (haccept : ∀ r, accept r = .ok a → r = .ack ∨ ∃ v, r = .value v)
    (h : c.answer? plan request deadline accept e = some a) :
    (plan e).fate = .served ∧ ∃ s, c.store? e = some s ∧ accept (s.handle request).1 = .ok a := by
  refine answer?_of_served (fun r hfate hr => ?_) h
  rcases haccept r hr with rfl | ⟨v, rfl⟩
  · exact hhonest.1 hfate
  · exact hhonest.2 v hfate

/-- The calls that are due before the deadline. -/
def timely (plan : Endpoint → Plan) (es : List Endpoint) (deadline : Nat) : List Call :=
  (scheduled plan es).filter fun call => decide (call.due < deadline)

theorem mem_timely {es : List Endpoint} {call : Call} :
    call ∈ timely plan es deadline ↔ call.endpoint ∈ es ∧ call.due < deadline ∧
      (plan call.endpoint).due = some call.due ∧ (plan call.endpoint).fate = call.fate := by
  rw [timely, List.mem_filter, decide_eq_true_eq, mem_scheduled]
  exact ⟨fun h => ⟨h.1.1, h.2, h.1.2⟩, fun h => ⟨⟨h.1, h.2.2⟩, h.2.1⟩⟩

theorem timely_nodup {es : List Endpoint} (h : es.Nodup) :
    ((timely plan es deadline).map Call.endpoint).Nodup :=
  (scheduled_nodup h).sublist (List.filter_sublist.map _)

/-- The replies to the timely calls, judged, in the order in which they come. -/
def completions (c : Cluster) (plan : Endpoint → Plan) (es : List Endpoint)
    (request : Request) (deadline : Nat) (accept : Response → Except CallError α) :
    List (Completion α) :=
  (c.arrivals request (timely plan es deadline)).map (Arrival.judge accept)

theorem completions_eq_map {es : List Endpoint} (h : es.Nodup) :
    c.completions plan es request deadline accept = (timely plan es deadline).map fun call =>
      ⟨call.due, call.endpoint, (c.meet request call.endpoint call.fate).1.judge accept⟩ := by
  rw [completions, arrivals_eq_map (timely_nodup h), List.map_map]
  rfl

theorem fanOut_outcome :
    (c.fanOut plan replicas request needed deadline accept).1 =
      tallyUp replicas.size needed deadline
        (c.completions plan replicas.endpoints request deadline accept) := rfl

theorem fanOut_cluster :
    (c.fanOut plan replicas request needed deadline accept).2 =
      c.after request ((timely plan replicas.endpoints deadline).filter fun call =>
        decide (call.due ≤
          (c.fanOut plan replicas request needed deadline accept).1.elapsed)) := rfl

theorem completions_sorted {es : List Endpoint} (h : es.Nodup) :
    (c.completions plan es request deadline accept).Pairwise fun a b => a.due ≤ b.due := by
  rw [completions_eq_map h, List.pairwise_map]
  exact scheduled_sorted.filter _

/-- The accepted replies are the answers of the endpoints, in another order. -/
theorem completions_accepted {es : List Endpoint} (h : es.Nodup) :
    ((c.completions plan es request deadline accept).filterMap Completion.accepted?).Perm
      (es.filterMap fun e => (c.answer? plan request deadline accept e).map (e, ·)) := by
  rw [completions_eq_map h, List.filterMap_map, timely, List.filterMap_filter, scheduled]
  -- The schedule only changes their order.
  refine ((List.mergeSort_perm _ _).filterMap _).trans ?_
  rw [List.filterMap_filterMap]
  refine List.Perm.of_eq (List.filterMap_congr fun e he => ?_)
  unfold answer?
  cases (plan e).due with
  | none => rfl
  | some t =>
    by_cases ht : t < deadline
    · simp only [Option.map_some, Option.bind_some, ht, decide_true, if_pos, Function.comp,
        Completion.accepted?]
      cases (c.meet request e (plan e).fate).1.judge accept <;> rfl
    · simp [ht]

/-- An operation that succeeds has as many replies as it needs, each the
    answer of another replica, and given by the time it ends. -/
theorem fanOut_replies {replies : List (Endpoint × α)}
    (h : (c.fanOut plan replicas request needed deadline accept).1.result = .ok replies) :
    replies.length = needed ∧ (replies.map Prod.fst).Nodup ∧
    ∀ p ∈ replies, p.1 ∈ replicas.endpoints ∧
      c.answer? plan request deadline accept p.1 = some p.2 ∧
      ∃ t, (plan p.1).due = some t ∧ t < deadline ∧
        t ≤ (c.fanOut plan replicas request needed deadline accept).1.elapsed := by
  rw [fanOut_outcome] at h ⊢
  rcases Outcome.result_eq_ok_iff.mp h with ⟨hend, rfl⟩
  have hsorted : (c.completions plan replicas.endpoints request deadline accept).Pairwise
      fun a b => a.due ≤ b.due := completions_sorted replicas.nodup
  have hperm : ((c.completions plan replicas.endpoints request deadline accept).filterMap
      Completion.accepted?).Perm _ := completions_accepted replicas.nodup
  rcases tallyUp_accepted hsorted with ⟨hle, seen, rest, hsplit, haccepted, hdue⟩
  -- What was accepted is among the answers of the endpoints.
  have hsub : (seen.filterMap Completion.accepted?).Sublist
      ((c.completions plan replicas.endpoints request deadline accept).filterMap
        Completion.accepted?) := by
    rw [hsplit]
    exact (List.sublist_append_left seen rest).filterMap _
  refine ⟨Nat.le_antisymm hle ((tallyFrom_satisfied_iff (Nat.zero_le _)).mp hend), ?_, ?_⟩
  · rw [haccepted]
    refine List.Nodup.sublist (hsub.map _) ?_
    rw [(hperm.map _).nodup_iff, List.map_filterMap]
    refine replicas.nodup.filterMap ?_
    intro e f g he hf
    simp only [Option.map_map, Option.mem_def, Option.map_eq_some_iff, Function.comp] at he hf
    rcases he with ⟨_, -, rfl⟩
    rcases hf with ⟨_, -, rfl⟩
    rfl
  · intro p hp
    rw [haccepted] at hp
    have hanswer := hperm.mem_iff.mp (hsub.subset hp)
    rcases List.mem_filterMap.mp hanswer with ⟨e, he, hpe⟩
    rcases Option.map_eq_some_iff.mp hpe with ⟨a, ha, rfl⟩
    refine ⟨he, ha, ?_⟩
    rcases List.mem_filterMap.mp hp with ⟨comp, hcomp, hacc⟩
    have hmem : comp ∈ c.completions plan replicas.endpoints request deadline accept := by
      rw [hsplit]
      exact List.mem_append_left _ hcomp
    rw [completions_eq_map replicas.nodup] at hmem
    rcases List.mem_map.mp hmem with ⟨call, hcall, rfl⟩
    have htimely := mem_timely.mp hcall
    -- The completion that was accepted is the call to this endpoint.
    have hend : call.endpoint = e := by
      unfold Completion.accepted? at hacc
      split at hacc
      · exact congrArg Prod.fst (Option.some.inj hacc)
      · cases hacc
    rw [hend] at htimely
    exact ⟨call.due, htimely.2.2.1, htimely.2.1, hdue _ hcomp⟩

/-- There is a reply for each replica at most. -/
theorem completions_length_le :
    (c.completions plan replicas.endpoints request deadline accept).length ≤ replicas.size := by
  rw [completions_eq_map replicas.nodup, List.length_map]
  refine Nat.le_trans (List.length_filter_le _ _) ?_
  rw [scheduled, List.length_mergeSort]
  exact List.length_filterMap_le _ _

/-- Enough answers make an operation succeed, whatever becomes of its other
    calls. -/
theorem fanOut_succeeds
    (h : needed ≤ (replicas.endpoints.filter fun e =>
      (c.answer? plan request deadline accept e).isSome).length) :
    ∃ replies, (c.fanOut plan replicas request needed deadline accept).1.result = .ok replies := by
  have hperm : ((c.completions plan replicas.endpoints request deadline accept).filterMap
      Completion.accepted?).Perm _ := completions_accepted replicas.nodup
  have htimely : ∀ comp ∈ c.completions plan replicas.endpoints request deadline accept,
      comp.due < deadline := by
    rw [completions_eq_map replicas.nodup]
    intro comp hcomp
    rcases List.mem_map.mp hcomp with ⟨call, hcall, rfl⟩
    exact (mem_timely.mp hcall).2.1
  have henough : needed ≤ ((c.completions plan replicas.endpoints request deadline
      accept).filterMap Completion.accepted?).length := by
    rw [hperm.length_eq]
    refine Nat.le_trans h (Nat.le_of_eq ?_)
    generalize replicas.endpoints = es
    induction es with
    | nil => rfl
    | cons e es ih =>
      cases he : c.answer? plan request deadline accept e with
      | none => simp [he, ih]
      | some a => simp [he, ih]
  exact ⟨_, Outcome.result_eq_ok_iff.mpr
    ⟨tallyUp_satisfied htimely henough completions_length_le, rfl⟩⟩

/-- A replica has handled the request once if its call lands, and is as it was
    if it does not. -/
theorem store?_fanOut (e : Endpoint) :
    (c.fanOut plan replicas request needed deadline accept).2.store? e =
      if e ∈ replicas.endpoints ∧ (plan e).lands deadline
          (c.fanOut plan replicas request needed deadline accept).1.elapsed = true
      then (c.store? e).map fun s => (s.handle request).2
      else c.store? e := by
  rw [fanOut_cluster]
  generalize (c.fanOut plan replicas request needed deadline accept).1.elapsed = elapsed
  by_cases h : e ∈ replicas.endpoints ∧ (plan e).lands deadline elapsed = true
  · rw [if_pos h]
    rcases h with ⟨he, hlands⟩
    rcases Plan.lands_iff.mp hlands with ⟨hhandled, t, hdue, ht, hend⟩
    have hcall : (⟨t, e, (plan e).fate⟩ : Call) ∈
        (timely plan replicas.endpoints deadline).filter fun call => decide (call.due ≤ elapsed) :=
      List.mem_filter.mpr ⟨mem_timely.mpr ⟨he, ht, hdue, rfl⟩, decide_eq_true hend⟩
    exact store?_after_of_handled
      ((timely_nodup replicas.nodup).sublist (List.filter_sublist.map _)) hcall hhandled
  · rw [if_neg h]
    -- A call that reaches the replica would have landed.
    refine store?_after_of_untouched fun call hcall he => ?_
    rw [Bool.eq_false_iff]
    intro hhandled
    rcases List.mem_filter.mp hcall with ⟨htimely, hend⟩
    rcases mem_timely.mp htimely with ⟨hmem, ht, hdue, hfate⟩
    rw [he] at hmem hdue hfate
    rw [← hfate] at hhandled
    exact h ⟨hmem, Plan.lands_iff.mpr ⟨hhandled, call.due, hdue, ht, of_decide_eq_true hend⟩⟩

end Cluster

/-- The version of a key that a request carries. -/
def Request.offers? (r : Request) (key : String) : Option Version :=
  match r with
  | .put k v _ => if k = key then some v else none
  | _ => none

/-- Only a version of the key itself changes what a store has under it. -/
theorem Store.get?_handle (s : Store) (request : Request) (key : String) :
    (s.handle request).2.get? key =
      match request.offers? key with
      | some v => (s.put key v).get? key
      | none => s.get? key := by
  cases request with
  | ping => rfl
  | get k => rfl
  | stat => rfl
  | put k v writeId =>
    simp only [handle, Request.offers?]
    by_cases hk : k = key
    · subst hk
      simp only [if_pos]
    · simp only [if_neg hk]
      exact get?_put_other s v (Ne.symm hk)

namespace Cluster

/-- The version that the replica at an endpoint holds under a key. -/
def holds? (c : Cluster) (e : Endpoint) (key : String) : Option Version :=
  (c.store? e).bind (·.get? key)

theorem holds?_of_store? {c c' : Cluster} {e : Endpoint} (h : c'.store? e = c.store? e)
    (key : String) : c'.holds? e key = c.holds? e key := by
  rw [holds?, holds?, h]

/-- A version that nothing at its replica covers is what an offer leaves. -/
theorem get?_put_of_news {c : Cluster} {e : Endpoint} {st : Store} {key : String} {v : Version}
    (hst : c.store? e = some st)
    (hnews : ∀ u, c.holds? e key = some u → ¬ v.vector ≤ u.vector) :
    (st.put key v).get? key = some v := by
  have haccepts : st.accepts key v = true := by
    rw [← Bool.not_eq_false, Store.accepts_eq_false_iff]
    rintro ⟨u, hu, hvu⟩
    refine hnews u ?_ hvu
    rw [holds?, hst]
    exact hu
  rw [Store.get?_put_self, if_pos haccepts]

variable {α : Type} {c : Cluster} {plan : Endpoint → Plan} {replicas : ReplicaSet}
  {request : Request} {needed deadline : Nat} {accept : Response → Except CallError α}

/-- What there is of a key at an endpoint: the version that the replica holds,
    or that it holds none; nothing at an endpoint without a replica. -/
def facet (c : Cluster) (key : String) (e : Endpoint) : Option (Option Version) :=
  (c.store? e).map (·.get? key)

theorem holds?_eq_join (c : Cluster) (e : Endpoint) (key : String) :
    c.holds? e key = (c.facet key e).join := by
  rw [holds?, facet]
  cases c.store? e <;> rfl

theorem facet_meet (c : Cluster) {key : String} (hoffer : request.offers? key = none)
    (e : Endpoint) (fate : Fate) : (c.meet request e fate).2.facet key = c.facet key := by
  funext f
  rw [facet, facet, store?_meet]
  by_cases h : f = e ∧ fate.handled = true
  · rw [if_pos h]
    cases c.store? f with
    | none => rfl
    | some s =>
      have hget := s.get?_handle request key
      rw [hoffer] at hget
      exact congrArg some hget
  · rw [if_neg h]

/-- Calls whose request carries no version of a key leave all of its versions
    as they are. -/
theorem facet_after {key : String} (hoffer : request.offers? key = none) (calls : List Call) :
    (c.after request calls).facet key = c.facet key := by
  induction calls generalizing c with
  | nil => rfl
  | cons call calls ih => rw [after_cons, ih, facet_meet c hoffer]

theorem holds?_after {key : String} (hoffer : request.offers? key = none) (calls : List Call)
    (e : Endpoint) : (c.after request calls).holds? e key = c.holds? e key := by
  rw [holds?_eq_join, holds?_eq_join, facet_after hoffer]

theorem holds?_fanOut {key : String} (hoffer : request.offers? key = none) (e : Endpoint) :
    (c.fanOut plan replicas request needed deadline accept).2.holds? e key
      = c.holds? e key :=
  holds?_after hoffer _ e

theorem holds?_askEach {key : String} (hoffer : request.offers? key = none) (limit : Nat)
    (e : Endpoint) :
    (c.askEach plan replicas request limit).2.1.holds? e key = c.holds? e key :=
  holds?_after hoffer _ e

/-- A request that carries a version of a key leaves a replica as it is or
    with something that covers that version. -/
theorem holds?_fanOut_offer {key : String} {v : Version} (hoffer : request.offers? key = some v)
    (e : Endpoint) :
    (c.fanOut plan replicas request needed deadline accept).2.holds? e key = c.holds? e key ∨
    ∃ u, (c.fanOut plan replicas request needed deadline accept).2.holds? e key = some u ∧
      v.vector ≤ u.vector ∧ (u = v ∨ c.holds? e key = some u) := by
  have h := @store?_fanOut α c plan replicas request needed deadline accept e
  split at h
  · cases hs : c.store? e with
    | none =>
      rw [hs] at h
      exact .inl (holds?_of_store? (h.trans hs.symm) key)
    | some s =>
      have hget := s.get?_handle request key
      rw [hoffer] at hget
      rcases s.covers_put key v with ⟨u, hu, hvu, hold⟩
      rw [holds?, holds?, h, hs]
      exact .inr ⟨u, hget.trans hu, hvu, hold⟩
  · exact .inl (holds?_of_store? h key)

end Cluster

end QuorumStore
