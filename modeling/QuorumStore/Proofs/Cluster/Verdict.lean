import QuorumStore.Proofs.Cluster.FanOut
import QuorumStore.Proofs.FanOut.Verdict
import QuorumStore.Session

/-!
# The Verdict of a Fan-Out

How an operation over a replica set ends, told from what each of its calls
brings and when.

Every call is over at some time, or never, and brings something that is
accepted or not. `Cluster.replies` lists what they bring in the order in which
they are over, with no regard to the deadline. That list alone tells how the
operation ends. If its decisive front part comes in time, the operation ends
with it: it succeeds with the accepted replies, which are as many as were
needed, or it fails with the last failure that has a cause. If it does not
come in time the operation times out at the deadline, with as many accepted
replies as there were by then.

The stores tell the same story. A replica has handled the request if its call
was due by the end of the operation and of a fate that reaches it; all other
replicas are as they were.

## Main definitions

* `Cluster.replies`: What the calls bring, in the order in which they are over.

## Theorems

* `Cluster.completions_eq_filter`: Replies in time are a part of all replies.
* `le_lastDue`: No reply comes later than the last.
* `Cluster.fanOut_of_decisive`, `Cluster.fanOut_of_undecided`: The two ways to
  end.
* `Cluster.fanOut_verdict`: How an operation ends.
-/

namespace QuorumStore

section Replies

variable {α : Type}

/-- No reply of an ordered sequence comes later than the last. -/
theorem le_lastDue {cs : List (Completion α)} (hsorted : cs.Pairwise fun a b => a.due ≤ b.due)
    {c : Completion α} (hc : c ∈ cs) : c.due ≤ lastDue cs := by
  rcases List.eq_nil_or_concat cs with rfl | ⟨front, last, rfl⟩
  · cases hc
  · rw [List.concat_eq_append] at hc hsorted ⊢
    rw [lastDue, List.getLast?_concat]
    rcases List.mem_append.mp hc with hfront | hlast
    · exact (List.pairwise_append.mp hsorted).2.2 c hfront last List.mem_cons_self
    · rw [List.mem_singleton.mp hlast]
      exact Nat.le_refl _

/-- Replies that all come before a deadline have the last of them before it. -/
theorem lastDue_lt {cs : List (Completion α)} {deadline : Nat} (hne : cs ≠ [])
    (hdue : ∀ c ∈ cs, c.due < deadline) : lastDue cs < deadline := by
  rw [lastDue, List.getLast?_eq_some_getLast hne]
  exact hdue _ (List.getLast_mem hne)

/-- The replies that come in time are the first ones. -/
theorem filter_due_front {cs : List (Completion α)}
    (hsorted : cs.Pairwise fun a b => a.due ≤ b.due) (deadline : Nat) :
    cs.filter (fun c => decide (c.due < deadline)) <+: cs := by
  induction cs with
  | nil => exact List.prefix_refl []
  | cons c cs ih =>
    rcases List.pairwise_cons.mp hsorted with ⟨hfirst, hrest⟩
    by_cases hdue : c.due < deadline
    · rw [List.filter_cons_of_pos (by simpa using hdue)]
      exact List.cons_prefix_cons.mpr ⟨rfl, ih hrest⟩
    · -- Once a reply is late, so are all behind it.
      rw [List.filter_eq_nil_iff.mpr ?_]
      · exact List.nil_prefix
      · intro d hd
        rw [decide_eq_true_eq]
        rcases List.mem_cons.mp hd with rfl | hd
        · exact hdue
        · exact fun hlt => hdue (Nat.lt_of_le_of_lt (hfirst d hd) hlt)

end Replies

namespace Cluster

variable {α : Type} {c : Cluster} {plan : Endpoint → Plan} {replicas : ReplicaSet}
  {request : Request} {needed deadline : Nat} {accept : Response → Except CallError α}

/-- What the calls of an operation bring, in the order in which they are over.
    A call that is never over brings nothing. -/
def replies (c : Cluster) (plan : Endpoint → Plan) (es : List Endpoint) (request : Request)
    (accept : Response → Except CallError α) : List (Completion α) :=
  (scheduled plan es).map fun call =>
    ⟨call.due, call.endpoint, (c.meet request call.endpoint call.fate).1.judge accept⟩

theorem replies_sorted {es : List Endpoint} :
    (c.replies plan es request accept).Pairwise fun a b => a.due ≤ b.due := by
  rw [replies, List.pairwise_map]
  exact scheduled_sorted

/-- The replies that come in time are those of all that are due by then. -/
theorem completions_eq_filter {es : List Endpoint} (h : es.Nodup) :
    c.completions plan es request deadline accept =
      (c.replies plan es request accept).filter fun x => decide (x.due < deadline) := by
  rw [completions_eq_map h, timely, replies, List.filter_map]
  rfl

/-- No replica replies twice. -/
theorem replies_nodup {es : List Endpoint} (h : es.Nodup) {P : List (Completion α)}
    (hP : P <+: c.replies plan es request accept) :
    ((P.filterMap Completion.accepted?).map Prod.fst).Nodup := by
  have hendpoints : ((c.replies plan es request accept).map Completion.endpoint).Nodup := by
    rw [replies, List.map_map]
    exact scheduled_nodup h
  -- An accepted reply bears the endpoint of its completion.
  have hsub : ∀ cs : List (Completion α),
      ((cs.filterMap Completion.accepted?).map Prod.fst).Sublist (cs.map Completion.endpoint) := by
    intro cs
    induction cs with
    | nil => exact List.Sublist.slnil
    | cons x cs ih =>
      rcases x with ⟨due, e, judged⟩
      cases judged with
      | accepted a => exact ih.cons_cons e
      | refused err => exact ih.cons e
      | broken => exact ih.cons e
  exact hendpoints.sublist ((hsub P).trans (hP.sublist.map _))

/-- A decisive front part that comes in time is what the operation ends with. -/
theorem fanOut_of_decisive (hle : needed ≤ replicas.size) {P : List (Completion α)}
    (h : Decisive replicas.size needed (c.replies plan replicas.endpoints request accept) P)
    (hdue : ∀ x ∈ P, x.due < deadline) :
    (c.fanOut plan replicas request needed deadline accept).1 =
      ⟨if needed ≤ (P.filterMap Completion.accepted?).length then .satisfied else .unreachable,
        ({} : Tally α).recordAll P, lastDue P⟩ := by
  rw [fanOut_outcome, completions_eq_filter replicas.nodup]
  refine tallyUp_of_decisive hle ⟨?_, h.decides, h.shortest⟩ hdue
  -- It is a front part of the replies that come in time as well.
  have hfront := h.front.filter fun x => decide (x.due < deadline)
  rwa [List.filter_eq_self.mpr fun x hx => decide_eq_true (hdue x hx)] at hfront

/-- Where none comes in time the operation times out. -/
theorem fanOut_of_undecided (hpos : 0 < needed) (hle : needed ≤ replicas.size)
    (h : ∀ P, Decisive replicas.size needed (c.replies plan replicas.endpoints request accept) P →
      deadline ≤ lastDue P) :
    (c.fanOut plan replicas request needed deadline accept).1 =
      ⟨.timedOut, ({} : Tally α).recordAll
        ((c.replies plan replicas.endpoints request accept).filter fun x =>
          decide (x.due < deadline)), deadline⟩ := by
  rw [fanOut_outcome, completions_eq_filter replicas.nodup]
  refine tallyUp_of_undecided hle (fun Q hQ hdecides => ?_) fun x hx =>
    of_decide_eq_true (List.mem_filter.mp hx).2
  -- What settles the matter in time would have a shortest front part.
  have hsorted := @replies_sorted α c plan request accept replicas.endpoints
  have hfront : (c.replies plan replicas.endpoints request accept).filter
      (fun x => decide (x.due < deadline)) <+: c.replies plan replicas.endpoints request accept :=
    filter_due_front hsorted deadline
  rcases exists_decisive (hQ.trans hfront) hdecides with ⟨P, hPQ, hP⟩
  have hne : P ≠ [] := by
    rintro rfl
    have hnone := hP.decides
    simp only [Decides, List.filterMap_nil, List.length_nil, List.countP_nil] at hnone
    omega
  have hlate := h P hP
  have hdue := lastDue_lt hne fun x hx =>
    of_decide_eq_true (List.mem_filter.mp ((hPQ.trans hQ).subset hx)).2
  omega

/-- How an operation ends over a set of replicas, one at least, at some level.
    Let `P` be the shortest front part of the replies, in the order in which
    the calls are over, that has as many accepted replies as the level asks for
    or more failures than it can bear. If `P` comes before the deadline the
    operation ends with it. With enough accepted replies it succeeds, with
    exactly these, from different replicas; otherwise it fails with the last
    failure in `P` that has a cause, or for want of replies if none has. If no
    such `P` comes before the deadline the operation times out then, and has
    got as many accepted replies as have come. Replicas have handled the
    request where a call landed, and nowhere else. -/
theorem fanOut_verdict (c : Cluster) (plan : Endpoint → Plan) (replicas : ReplicaSet)
    (hreplicas : 0 < replicas.size) (level : Level) (operation : Kind) (request : Request)
    (deadline : Nat) (accept : Response → Except CallError α) :
    let needed := level.required replicas.size
    let cs := c.replies plan replicas.endpoints request accept
    let run := c.fanOut plan replicas request needed deadline accept
    let result := run.1.result.mapError (Session.shortfallError operation needed)
    (∀ P, Decisive replicas.size needed cs P → lastDue P < deadline →
      run.1.elapsed = lastDue P ∧
      (needed ≤ (P.filterMap Completion.accepted?).length →
        result = .ok (P.filterMap Completion.accepted?) ∧
        (P.filterMap Completion.accepted?).length = needed ∧
        ((P.filterMap Completion.accepted?).map Prod.fst).Nodup) ∧
      ((P.filterMap Completion.accepted?).length < needed →
        (∀ e cause, (P.filterMap Completion.failure?).getLast? = some (e, cause) →
          result = .error (.transport e cause)) ∧
        (P.filterMap Completion.failure? = [] →
          result = .error (.timeout operation needed
            (P.filterMap Completion.accepted?).length)))) ∧
    ((∀ P, Decisive replicas.size needed cs P → deadline ≤ lastDue P) →
      run.1.elapsed = deadline ∧
      result = .error (.timeout operation needed
        ((cs.filter fun x => decide (x.due < deadline)).filterMap
          Completion.accepted?).length)) ∧
    ∀ e, run.2.store? e =
      if e ∈ replicas.endpoints ∧ (plan e).lands deadline run.1.elapsed = true
      then (c.store? e).map fun s => (s.handle request).2
      else c.store? e := by
  intro needed cs run result
  have hle : needed ≤ replicas.size := level.required_le hreplicas
  have hpos : 0 < needed := level.required_pos hreplicas
  refine ⟨fun P hP hlast => ?_, fun hlate => ?_, store?_fanOut⟩
  · have hsorted : P.Pairwise fun a b => a.due ≤ b.due := replies_sorted.sublist hP.front.sublist
    have hrun : run.1 = _ := fanOut_of_decisive hle hP fun x hx =>
      Nat.lt_of_le_of_lt (le_lastDue hsorted hx) hlast
    have haccepted : (({} : Tally α).recordAll P).accepted =
        P.filterMap Completion.accepted? := by
      rw [Tally.accepted_recordAll, List.nil_append]
    have hlastFailure : (({} : Tally α).recordAll P).lastFailure =
        (P.filterMap Completion.failure?).getLast? := by
      rw [Tally.lastFailure_recordAll, Option.or_none]
    refine ⟨by rw [hrun], fun henough => ?_, fun hfew => ?_⟩
    · have hok : run.1.result = .ok (P.filterMap Completion.accepted?) := by
        rw [hrun, if_pos henough]
        exact congrArg Except.ok haccepted
      refine ⟨by rw [show result = run.1.result.mapError _ from rfl, hok]; rfl,
        (fanOut_replies hok).1, replies_nodup replicas.nodup hP.front⟩
    · have hresult : result = (⟨.unreachable, ({} : Tally α).recordAll P, lastDue P⟩ :
          Outcome α).result.mapError (Session.shortfallError operation needed) := by
        rw [show result = run.1.result.mapError _ from rfl, hrun, if_neg (by omega)]
      rw [hresult, Outcome.result]
      simp only [hlastFailure, haccepted]
      constructor
      · intro e cause hcause
        rw [hcause]
        rfl
      · intro hnone
        rw [hnone]
        rfl
  · have hrun : run.1 = _ := fanOut_of_undecided hpos hle hlate
    refine ⟨by rw [hrun], ?_⟩
    rw [show result = run.1.result.mapError _ from rfl, hrun, Outcome.result]
    simp only [Tally.accepted_recordAll, List.nil_append]
    rfl

/-- Two of three calls fail, and the quorum is out of reach with the second of
    them. That one breaks off and leaves no cause, so the operation ends when
    it does but with the error of the one before. -/
theorem fanOut_verdict_broken :
    let replicas : ReplicaSet := ⟨[⟨"a", 1⟩, ⟨"a", 2⟩, ⟨"a", 3⟩], by decide⟩
    let plan : Endpoint → Plan := fun e =>
      if e.port = 1 then ⟨some 5, .failed (.connection "refused")⟩
      else if e.port = 2 then ⟨some 3, .served⟩ else ⟨some 9, .broken⟩
    let run := (Cluster.fresh replicas.endpoints).fanOut plan replicas (.get "k")
      (Level.quorum.required replicas.size) 100 Session.acceptValue
    0 < replicas.size ∧ run.1.elapsed = 9 ∧
      run.1.result.mapError (Session.shortfallError .get (Level.quorum.required replicas.size)) =
        .error (.transport ⟨"a", 1⟩ (.connection "refused")) := by
  intro replicas plan run
  have hreplicas : 0 < replicas.size := by decide
  have hscheduled : scheduled plan replicas.endpoints = [⟨3, ⟨"a", 2⟩, .served⟩,
      ⟨5, ⟨"a", 1⟩, .failed (.connection "refused")⟩, ⟨9, ⟨"a", 3⟩, .broken⟩] := by
    simp [scheduled, replicas, plan, List.mergeSort, List.MergeSort.Internal.splitInTwo]
  have hreplies : (Cluster.fresh replicas.endpoints).replies plan replicas.endpoints (.get "k")
      Session.acceptValue = [⟨3, ⟨"a", 2⟩, .accepted none⟩,
        ⟨5, ⟨"a", 1⟩, .refused (.connection "refused")⟩, ⟨9, ⟨"a", 3⟩, .broken⟩] := by
    rw [replies, hscheduled]
    rfl
  have hverdict := fanOut_verdict (Cluster.fresh replicas.endpoints) plan replicas hreplicas
    .quorum .get (.get "k") 100 Session.acceptValue
  rw [hreplies] at hverdict
  have hdecisive : Decisive replicas.size (Level.quorum.required replicas.size)
      [(⟨3, ⟨"a", 2⟩, .accepted none⟩ : Completion (Option Version)),
        ⟨5, ⟨"a", 1⟩, .refused (.connection "refused")⟩, ⟨9, ⟨"a", 3⟩, .broken⟩]
      [⟨3, ⟨"a", 2⟩, .accepted none⟩, ⟨5, ⟨"a", 1⟩, .refused (.connection "refused")⟩,
        ⟨9, ⟨"a", 3⟩, .broken⟩] := by
    refine ⟨List.prefix_refl _, by decide, fun Q hQ hdecides => ?_⟩
    -- The two shorter front parts leave one call too many.
    rcases List.prefix_cons_iff.mp hQ with rfl | ⟨Q₁, rfl, hQ₁⟩
    · exact absurd hdecides (by decide)
    · rcases List.prefix_cons_iff.mp hQ₁ with rfl | ⟨Q₂, rfl, hQ₂⟩
      · exact absurd hdecides (by decide)
      · rcases List.prefix_cons_iff.mp hQ₂ with rfl | ⟨Q₃, rfl, hQ₃⟩
        · exact absurd hdecides (by decide)
        · rw [List.prefix_nil.mp hQ₃]
  rcases hverdict.1 _ hdecisive (by decide) with ⟨helapsed, -, hfew⟩
  exact ⟨hreplicas, helapsed, (hfew (by decide)).1 _ _ rfl⟩

end Cluster

end QuorumStore
