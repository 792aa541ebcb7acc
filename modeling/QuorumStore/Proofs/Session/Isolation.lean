import QuorumStore.Proofs.Cluster.Isolation
import QuorumStore.Proofs.Session.Guards

/-!
# Isolation of Keys in a Session

What a session does about one key does not depend on what it knows of others.

The facet of a session at a key is what it has been told, whether it has
connected, and its history of the key. What a session sends about the key, what
it makes of the replies and how long that takes is decided by this facet and by
that of the cluster (`Session.facet_perform_congr`). An operation that does not
matter to the key leaves both facets as they are, whatever becomes of it
(`Session.facet_perform_other`).

A greeting matters to every key. It marks the session as connected, and without
that nothing is sent.

## Main definitions

* `Session.Facet`, `Session.facet`: What there is of a session at a key.
* `Effect.Facet`, `Effect.facet`: What there is of an effect at a key.
* `Operation.mattersTo`: The operation is a greeting, or about the key.

## Theorems

* `Session.perform_calls`: What an operation does to the cluster its calls do.
* `Session.facet_perform_congr`: What matters to a key is decided by the facets.
* `Session.facet_perform_other`: What does not matter leaves them alone.
-/

namespace QuorumStore

/-- The operation is about the key, or it is a greeting. -/
def Operation.mattersTo (op : Operation) (key : String) : Bool :=
  match op with
  | .connect => true
  | .get k => k == key
  | .put k _ => k == key
  | .delete k => k == key
  | .stat => false

/-- What a session has been told, whether it has connected, and what it
    remembers of one key. -/
structure Session.Facet where
  settings : Settings
  placement : Placement
  connected : Bool
  history : VersionVector

/-- What comes of an operation, how long it takes, and what it leaves of one
    key. -/
structure Effect.Facet (α : Type) where
  result : Except OpError α
  session : Session.Facet
  cluster : Endpoint → Option (Option Version)
  elapsed : Nat

/-- What there is of a session at a key. -/
def Session.facet (s : Session) (key : String) : Session.Facet :=
  ⟨s.settings, s.placement, s.connected, s.history key⟩

/-- What there is of an effect at a key. -/
def Effect.facet {α : Type} (x : Effect α) (key : String) : Effect.Facet α :=
  ⟨x.result, x.session.facet key, x.cluster.facet key, x.elapsed⟩

theorem Effect.facet_eq_iff {α : Type} {x y : Effect α} {key : String} :
    x.facet key = y.facet key ↔ x.result = y.result ∧
      x.session.facet key = y.session.facet key ∧ x.cluster.facet key = y.cluster.facet key ∧
      x.elapsed = y.elapsed := by
  rw [facet, facet, Facet.mk.injEq]

theorem Effect.facet_map {α β : Type} {x y : Effect α} {key : String} (f : α → β)
    (h : x.facet key = y.facet key) : (x.map f).facet key = (y.map f).facet key := by
  rcases facet_eq_iff.mp h with ⟨hresult, hrest⟩
  exact facet_eq_iff.mpr ⟨congrArg (Except.map f) hresult, hrest⟩

namespace Session

variable {s t : Session} {c d : Cluster} {plan : Endpoint → Plan} {ticket : Ticket}
  {op : Operation} {key : String}

theorem facet_eq_iff : s.facet key = t.facet key ↔ s.settings = t.settings ∧
    s.placement = t.placement ∧ s.connected = t.connected ∧ s.history key = t.history key := by
  rw [facet, facet, Facet.mk.injEq]

/-- What an operation does to the cluster is done by calls, which carry a
    version of no key but one that the operation writes. -/
theorem perform_calls (s : Session) (c : Cluster) (plan : Endpoint → Plan) (ticket : Ticket)
    (op : Operation) :
    ∃ request calls, (s.perform c plan ticket op).cluster = c.after request calls ∧
      ∀ key, op.writes? key = none → request.offers? key = none := by
  -- Where nothing is sent there are no calls, and any request will do for them.
  have hwrite : ∀ (k : String) (value : Option String), ∃ request calls,
      (s.write c plan ticket k value).cluster = c.after request calls ∧
        ∀ key, k ≠ key → request.offers? key = none := by
    intro k value
    cases hsends : s.sends k with
    | false =>
      rw [write_of_not_sends c plan ticket value hsends]
      exact ⟨.ping, [], rfl, fun _ _ => rfl⟩
    | true =>
      rw [write_of_sends hsends]
      exact ⟨s.writeRequest ticket k value, _, rfl, fun key hk => if_neg hk⟩
  have hother : ∀ {k key : String} {value : Option String},
      (if k = key then some value else none) = none → k ≠ key := by
    intro k key value h hk
    rw [if_pos hk] at h
    cases h
  cases op with
  | connect =>
    simp only [perform, Effect.map, connect]
    split
    · exact ⟨.ping, [], rfl, fun _ _ => rfl⟩
    · split <;> exact ⟨.ping, _, rfl, fun _ _ => rfl⟩
  | get k =>
    simp only [perform, Effect.map]
    cases hsends : s.sends k with
    | false =>
      rw [get_of_not_sends c plan hsends]
      exact ⟨.ping, [], rfl, fun _ _ => rfl⟩
    | true =>
      rw [get_of_sends hsends]
      cases (s.readCalls c plan k).1.result <;> exact ⟨.get k, _, rfl, fun _ _ => rfl⟩
  | put k value =>
    rcases hwrite k (some value) with ⟨request, calls, hcluster, hoffers⟩
    exact ⟨request, calls, hcluster, fun key h => hoffers key (hother h)⟩
  | delete k =>
    rcases hwrite k none with ⟨request, calls, hcluster, hoffers⟩
    exact ⟨request, calls, hcluster, fun key h => hoffers key (hother h)⟩
  | stat =>
    simp only [perform, Effect.map, stat]
    split
    · exact ⟨.stat, [], rfl, fun _ _ => rfl⟩
    · exact ⟨.stat, _, rfl, fun _ _ => rfl⟩

section Congr

variable (hs : s.facet key = t.facet key) (hc : c.facet key = d.facet key)
include hs

theorem sends_congr : s.sends key = t.sends key := by
  rcases facet_eq_iff.mp hs with ⟨-, hplacement, hconnected, -⟩
  rw [sends, sends, hplacement, hconnected]

theorem refusal_congr : s.refusal = t.refusal := by
  rw [refusal, refusal, (facet_eq_iff.mp hs).2.2.1]

theorem facet_setHistory_congr (v : VersionVector) :
    (s.setHistory key v).facet key = (t.setHistory key v).facet key := by
  rcases facet_eq_iff.mp hs with ⟨hsettings, hplacement, hconnected, -⟩
  refine facet_eq_iff.mpr ⟨hsettings, hplacement, hconnected, ?_⟩
  rw [history_setHistory_self, history_setHistory_self]

theorem facet_observe_congr (survivors : List Version) :
    (s.observe key survivors).facet key = (t.observe key survivors).facet key := by
  unfold observe
  by_cases hempty : survivors.isEmpty = true
  · rw [if_pos hempty, if_pos hempty]
    exact hs
  · rw [if_neg hempty, if_neg hempty, (facet_eq_iff.mp hs).2.2.2]
    exact facet_setHistory_congr hs _

theorem nextVector_congr (ticket : Ticket) : s.nextVector ticket key = t.nextVector ticket key := by
  rcases facet_eq_iff.mp hs with ⟨hsettings, -, -, hhistory⟩
  rw [nextVector, nextVector, hsettings, hhistory]

theorem facet_setLevels_congr (read write : Option Level) :
    (s.setLevels read write).facet key = (t.setLevels read write).facet key := by
  rcases facet_eq_iff.mp hs with ⟨hsettings, hplacement, hconnected, hhistory⟩
  refine facet_eq_iff.mpr ⟨?_, hplacement, hconnected, hhistory⟩
  rw [setLevels, setLevels, hsettings]

include hc

theorem facet_refuse_congr {α : Type} (counted counted' : Counters) {e e' : OpError}
    (he : e = e') :
    (s.refuse c counted e : Effect α).facet key = (t.refuse d counted' e').facet key := by
  simp only [Effect.facet, refuse, hs, hc, he]

theorem facet_get_congr : (s.get c plan key).facet key = (t.get d plan key).facet key := by
  rcases facet_eq_iff.mp hs with ⟨hsettings, hplacement, -, -⟩
  cases hsends : t.sends key with
  | false =>
    rw [get_of_not_sends c plan ((sends_congr hs).trans hsends), get_of_not_sends d plan hsends]
    exact facet_refuse_congr hs hc _ _ (refusal_congr hs)
  | true =>
    rw [get_of_sends ((sends_congr hs).trans hsends), get_of_sends hsends]
    have hcalls : (s.readCalls c plan key).1 = (t.readCalls d plan key).1 ∧
        (s.readCalls c plan key).2.facet key = (t.readCalls d plan key).2.facet key := by
      rw [readCalls, readCalls, hsettings, hplacement]
      exact Cluster.facet_fanOut_congr (beq_self_eq_true key) hc
    rw [hcalls.1, hsettings, hplacement]
    cases (t.readCalls d plan key).1.result with
    | error short => simp only [Effect.facet, hs, hcalls.2]
    | ok replies => simp only [Effect.facet, facet_observe_congr hs, hcalls.2]

theorem facet_write_congr (value : Option String) :
    (s.write c plan ticket key value).facet key =
      (t.write d plan ticket key value).facet key := by
  rcases facet_eq_iff.mp hs with ⟨hsettings, hplacement, -, -⟩
  cases hsends : t.sends key with
  | false =>
    rw [write_of_not_sends c plan ticket value ((sends_congr hs).trans hsends),
      write_of_not_sends d plan ticket value hsends]
    exact facet_refuse_congr hs hc _ _ (refusal_congr hs)
  | true =>
    rw [write_of_sends ((sends_congr hs).trans hsends), write_of_sends hsends]
    have hcalls : (s.writeCalls c plan ticket key value).1 =
          (t.writeCalls d plan ticket key value).1 ∧
        (s.writeCalls c plan ticket key value).2.facet key =
          (t.writeCalls d plan ticket key value).2.facet key := by
      rw [writeCalls, writeCalls, writeRequest, writeRequest, nextVector_congr hs, hsettings,
        hplacement]
      exact Cluster.facet_fanOut_congr (beq_self_eq_true key) hc
    simp only [Effect.facet, hcalls, hsettings, hplacement, nextVector_congr hs,
      facet_setHistory_congr hs]

theorem facet_connect_congr : (s.connect c plan).facet key = (t.connect d plan).facet key := by
  rcases facet_eq_iff.mp hs with ⟨hsettings, hplacement, -, hhistory⟩
  simp only [connect, hsettings, hplacement]
  cases hempty : t.placement.everywhere.isEmpty with
  | true => exact facet_refuse_congr hs hc _ _ rfl
  | false =>
    have hmatters : Request.ping.mattersTo key = true := rfl
    rcases Cluster.facet_askEach_congr hmatters hc plan t.placement.everywhere
      t.settings.statTimeout with ⟨hreplies, hfacet, helapsed⟩
    rw [hreplies, helapsed]
    simp only [Bool.false_eq_true, if_false]
    split
    · simp only [Effect.facet, hs, hfacet]
    · exact Effect.facet_eq_iff.mpr
        ⟨rfl, facet_eq_iff.mpr ⟨rfl, rfl, rfl, hhistory⟩, hfacet, rfl⟩

/-- What an operation that matters to the key comes to, how long it takes and
    what it leaves of the key is decided by the facets. -/
theorem facet_perform_congr (plan : Endpoint → Plan) (ticket : Ticket)
    (hmatters : op.mattersTo key = true) :
    (s.perform c plan ticket op).facet key = (t.perform d plan ticket op).facet key := by
  cases op with
  | connect => exact Effect.facet_map _ (facet_connect_congr hs hc)
  | get k =>
    obtain rfl : k = key := eq_of_beq hmatters
    exact Effect.facet_map _ (facet_get_congr hs hc)
  | put k value =>
    obtain rfl : k = key := eq_of_beq hmatters
    exact Effect.facet_map _ (facet_write_congr hs hc (some value))
  | delete k =>
    obtain rfl : k = key := eq_of_beq hmatters
    exact Effect.facet_map _ (facet_write_congr hs hc none)
  | stat => cases hmatters

end Congr

/-- An operation that does not matter to the key leaves it as it is. -/
theorem facet_perform_other (s : Session) (c : Cluster) (plan : Endpoint → Plan)
    (ticket : Ticket) (hmatters : op.mattersTo key = false) :
    (s.perform c plan ticket op).session.facet key = s.facet key ∧
    (s.perform c plan ticket op).cluster.facet key = c.facet key := by
  have hconnect : op ≠ .connect := by
    rintro rfl
    cases hmatters
  have hget : op ≠ .get key := by
    rintro rfl
    rw [Operation.mattersTo, beq_self_eq_true] at hmatters
    cases hmatters
  have hwrites : op.writes? key = none := by
    cases op with
    | put k value => exact if_neg (ne_of_beq_false hmatters)
    | delete k => exact if_neg (ne_of_beq_false hmatters)
    | _ => rfl
  constructor
  · -- Only a greeting connects, and the history is kept with the key.
    rcases s.perform_keeps c plan ticket op with ⟨hsettings, hplacement⟩
    refine facet_eq_iff.mpr ⟨hsettings, hplacement, ?_, ?_⟩
    · rw [Bool.eq_iff_iff, connected_perform, or_iff_left fun h => hconnect h.1]
    · refine (perform_other ?_ (if_neg hget)).1
      rw [Option.eq_none_iff_forall_ne_some]
      intro v hv
      rcases stamp?_eq_some_iff.mp hv with ⟨-, value, hvalue, -⟩
      rw [hwrites] at hvalue
      cases hvalue
  · rcases s.perform_calls c plan ticket op with ⟨request, calls, hcluster, hoffers⟩
    rw [hcluster, Cluster.facet_after (hoffers key hwrites)]

end Session

end QuorumStore
