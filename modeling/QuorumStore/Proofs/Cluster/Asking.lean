import QuorumStore.Proofs.Cluster.FanOut

/-!
# Asking Every Replica

What is heard of a replica that is asked for itself.

When every replica is asked and each has the same limit, nothing depends on the
others: what is heard of one is its reply, if its call is due by then, and the
reply is the one that it would have given if it had been asked alone. All the
replies together are therefore a function of the endpoint, mapped over the
replica set, and nobody waits longer than the limit.

## Main definitions

* `Cluster.heard?`: The reply of one replica that comes within a limit.

## Theorems

* `Cluster.askEach_replies`: Every replica is heard for itself.
* `Cluster.heard?_eq_some_iff`: What is heard, and when.
* `Cluster.heard?_congr`: What is heard of a replica is its own affair.
* `Cluster.elapsed_askEach_le`: Nobody waits longer than the limit.
-/

namespace QuorumStore

namespace Cluster

variable {c d : Cluster} {plan plan' : Endpoint → Plan} {replicas : ReplicaSet}
  {request : Request} {limit : Nat} {e : Endpoint}

/-- The reply of a replica, if its call is due within the limit. -/
def heard? (c : Cluster) (plan : Endpoint → Plan) (request : Request) (limit : Nat)
    (e : Endpoint) : Option Reply :=
  match (plan e).due with
  | none => none
  | some t => if t ≤ limit then some (c.meet request e (plan e).fate).1 else none

theorem heard?_eq_some_iff {reply : Reply} : c.heard? plan request limit e = some reply ↔
    (∃ t ≤ limit, (plan e).due = some t) ∧ (c.meet request e (plan e).fate).1 = reply := by
  unfold heard?
  cases (plan e).due with
  | none => simp
  | some t => by_cases ht : t ≤ limit <;> simp [ht]

/-- What is heard of a replica depends on its store and on the plan of its own
    call. -/
theorem heard?_congr (hstore : d.store? e = c.store? e) (hplan : plan' e = plan e) :
    d.heard? plan' request limit e = c.heard? plan request limit e := by
  rw [heard?, heard?, hplan, reply_meet_congr request _ hstore]

/-- The call to a replica is there if it is due in time, and is the only one. -/
theorem find?_timely {es : List Endpoint} {deadline : Nat} (he : e ∈ es) {call : Call} :
    (timely plan es deadline).find? (fun call => call.endpoint == e) = some call ↔
      call.endpoint = e ∧ call.due < deadline ∧ (plan e).due = some call.due ∧
        (plan e).fate = call.fate := by
  have hfound : ∀ {x : Call}, (timely plan es deadline).find? (fun call => call.endpoint == e) =
      some x → x.endpoint = e ∧ x.due < deadline ∧ (plan e).due = some x.due ∧
        (plan e).fate = x.fate := by
    intro x hx
    have hend : x.endpoint = e := by simpa using List.find?_some hx
    exact ⟨hend, hend ▸ (mem_timely.mp (List.mem_of_find?_eq_some hx)).2⟩
  refine ⟨hfound, fun h => ?_⟩
  obtain ⟨hend, hlt, hdue, hfate⟩ := h
  have hmem : call ∈ timely plan es deadline :=
    mem_timely.mpr (by rw [hend]; exact ⟨he, hlt, hdue, hfate⟩)
  cases hx : (timely plan es deadline).find? (fun call => call.endpoint == e) with
  | none => exact absurd (beq_iff_eq.mpr hend) (List.find?_eq_none.mp hx call hmem)
  | some x =>
    -- One plan makes one call.
    obtain ⟨xend, -, xdue, xfate⟩ := hfound hx
    cases x
    cases call
    simp only [Option.some.injEq, Call.mk.injEq]
    exact ⟨Option.some.inj (xdue.symm.trans hdue), xend.trans hend.symm, xfate.symm.trans hfate⟩

/-- A call that is due within the limit is due before the next moment. -/
theorem askEach_calls (plan : Endpoint → Plan) (es : List Endpoint) (limit : Nat) :
    ((scheduled plan es).filter fun call => decide (call.due ≤ limit)) =
      timely plan es (limit + 1) := by
  simp only [timely, Nat.lt_succ_iff]

/-- Every replica is heard for itself. -/
theorem askEach_replies : (c.askEach plan replicas request limit).1 =
    replicas.endpoints.map fun e => (e, c.heard? plan request limit e) := by
  refine List.map_congr_left fun e he => Prod.ext rfl (Option.ext fun reply => ?_)
  -- No replica is called twice, so each is found as it was.
  rw [askEach_calls, arrivals_eq_map (timely_nodup replicas.nodup), List.find?_map,
    Option.map_map, heard?_eq_some_iff, Option.map_eq_some_iff]
  constructor
  · rintro ⟨call, hcall, rfl⟩
    obtain ⟨rfl, hlt, hdue, hfate⟩ := (find?_timely he).mp hcall
    exact ⟨⟨call.due, Nat.le_of_lt_succ hlt, hdue⟩, by rw [hfate]; rfl⟩
  · rintro ⟨⟨t, hle, hdue⟩, rfl⟩
    have hlt := Nat.lt_succ_of_le hle
    exact ⟨⟨t, e, (plan e).fate⟩, (find?_timely he).mpr ⟨rfl, hlt, hdue, rfl⟩, rfl⟩

/-- Nobody waits longer than the limit. -/
theorem elapsed_askEach_le : (c.askEach plan replicas request limit).2.2 ≤ limit := by
  -- The longest of waits that are all within the limit is within it.
  have hfold : ∀ (wait : Endpoint → Nat) (es : List Endpoint) (t : Nat), (∀ e, wait e ≤ limit) →
      t ≤ limit → es.foldl (fun t e => max t (wait e)) t ≤ limit := by
    intro wait es t hwait ht
    induction es generalizing t with
    | nil => exact ht
    | cons e es ih => exact ih _ (Nat.max_le.mpr ⟨ht, hwait e⟩)
  refine hfold _ _ 0 (fun e => ?_) (Nat.zero_le limit)
  split
  · exact Nat.min_le_right _ limit
  · exact Nat.le_refl limit

end Cluster

end QuorumStore
