import Mathlib.Data.List.Perm.Subperm
import Mathlib.Data.List.Permutation
import QuorumStore.Proofs.System.Run

/-!
# Reading Back What Was Put

When a session finds what it has just put.

A put that every replica acknowledged need not be on any of them. A replica
acknowledges a version whether it takes it or not, and it does not take one
that it has something newer than, or as new. The session stamps its version
from its own history, without a look at the replicas, so it can come out below
what they have: that happens to a session which goes by the name of an earlier
one and starts counting from one again.

It happens to no other. The counts for a name come from the sessions of that
name, so a session that has counted as far as all of its namesakes puts a
version that is news to every replica (`Grounded.not_le_held`). All of them
take it, and whatever replies a read then rests on, it finds that version.

## Main definitions

* `Grounded`: No count is beyond all sessions of its name.
* `Leads`: A session has counted as far as its namesakes.
* `servedInTime`: The replicas whose responses to a read arrive in time.

## Theorems

* `Session.gathered?_of_served`: Enough replicas make a read complete.
* `Session.get_of_unanimous`: A read finds what all replicas hold.
* `Session.holds?_of_acked`, `Session.holds?_of_acked_all`: What all acknowledge
  and none covers, all hold.
* `grounded_run`: No run leaves a count that no session has made.
* `System.get_after_put_all`: A session finds what it has put.
* `System.get_after_put_all_namesake`: Unless it shares its name.
-/

namespace QuorumStore

/-- The replicas whose response to a call arrives before a deadline, and is
    their own. -/
def servedInTime (plan : Endpoint → Plan) (replicas : ReplicaSet) (deadline : Nat) :
    List Endpoint :=
  replicas.endpoints.filter fun e =>
    (plan e).fate == .served && (plan e).due.any fun t => decide (t < deadline)

/-- As many replicas of a set as there are, each of them once, are all of
    them. -/
theorem ReplicaSet.mem_of_length {r : ReplicaSet} {es : List Endpoint} (hnodup : es.Nodup)
    (hsub : ∀ e ∈ es, e ∈ r.endpoints) (hlen : es.length = r.size) {e : Endpoint}
    (he : e ∈ r.endpoints) : e ∈ es :=
  ((List.subperm_of_subset hnodup hsub).perm_of_length_le (Nat.le_of_eq hlen.symm)).mem_iff.mpr he

theorem Version.reconcile_of_forall_eq {vs : List Version} {v : Version} (hne : vs ≠ [])
    (hall : ∀ u ∈ vs, u = v) : reconcile vs = [v] := by
  rcases List.exists_mem_of_ne_nil vs hne with ⟨u, hu⟩
  rw [hall u hu] at hu
  exact reconcile_eq_singleton hu (fun w hw => le_of_eq (congrArg _ (hall w hw)))
    fun w hw _ => hall w hw

namespace Session

variable {s : Session} {c : Cluster} {plan : Endpoint → Plan} {key : String}

/-- A read gathers its replies if as many replicas as it needs serve it in
    time. -/
theorem gathered?_of_served (hsends : s.sends key = true)
    (hstores : ∀ e ∈ (s.placement.replicasFor key).endpoints, (c.store? e).isSome = true)
    (hserved : s.settings.readLevel.required (s.placement.replicasFor key).size ≤
      (servedInTime plan (s.placement.replicasFor key) s.settings.readTimeout).length) :
    ∃ replies, s.gathered? c plan key = some replies := by
  -- A replica that serves the read in time answers with what it holds.
  have hanswer : ∀ e ∈ servedInTime plan (s.placement.replicasFor key) s.settings.readTimeout,
      (c.answer? plan (.get key) s.settings.readTimeout acceptValue e).isSome = true := by
    intro e he
    rcases List.mem_filter.mp he with ⟨hmem, hserve⟩
    rw [Bool.and_eq_true, beq_iff_eq, Option.any_eq_true] at hserve
    rcases hserve with ⟨hfate, t, hdue, ht⟩
    rcases Option.isSome_iff_exists.mp (hstores e hmem) with ⟨st, hst⟩
    refine Option.isSome_iff_exists.mpr ⟨st.get? key, Cluster.answer?_eq_some_iff.mpr
      ⟨t, .value (st.get? key), hdue, of_decide_eq_true ht, ?_, rfl⟩⟩
    simp only [hfate, Cluster.meet, Cluster.serve_eq, hst]
    rfl
  have hsub : (servedInTime plan (s.placement.replicasFor key) s.settings.readTimeout).Sublist
      ((s.placement.replicasFor key).endpoints.filter fun e =>
        (c.answer? plan (.get key) s.settings.readTimeout acceptValue e).isSome) := by
    rw [← List.filter_eq_self.mpr hanswer, servedInTime]
    exact List.filter_sublist.filter _
  rcases Cluster.fanOut_succeeds (Nat.le_trans hserved hsub.length_le) with ⟨replies, hreplies⟩
  exact ⟨replies, gathered?_eq_some_iff.mpr ⟨hsends, hreplies⟩⟩

/-- Where all replicas hold one version, it is what survives of a read. -/
theorem reconcile_of_unanimous {v : Version} {replies : List (Endpoint × Option Version)}
    (hhonest : ∀ e, (plan e).Honest) (hgathered : s.gathered? c plan key = some replies)
    (hholds : ∀ e ∈ (s.placement.replicasFor key).endpoints, c.holds? e key = some v) :
    Version.reconcile (versions replies) = [v] := by
  rcases mem_gathered hhonest hgathered with ⟨hlen, -, hall⟩
  have hreply : ∀ p ∈ replies, p.2 = some v := by
    intro p hp
    rw [← (hall p hp).2]
    exact hholds p.1 (hall p hp).1
  -- There are replicas to ask, so there is a reply at least.
  have hpos : 0 < replies.length := by
    rw [hlen]
    refine s.settings.readLevel.required_pos ?_
    rw [ReplicaSet.size, List.length_pos_iff, ne_eq, ← List.isEmpty_iff]
    exact Bool.eq_false_iff.mp (sends_iff.mp (gathered?_eq_some_iff.mp hgathered).1).2
  rcases List.exists_mem_of_length_pos hpos with ⟨p, hp⟩
  have hmem : v ∈ versions replies := by
    rw [mem_versions]
    refine ⟨p.1, ?_⟩
    rw [← hreply p hp]
    exact hp
  refine Version.reconcile_of_forall_eq (List.ne_nil_of_mem hmem) fun u hu => ?_
  rcases mem_versions.mp hu with ⟨e, he⟩
  exact Option.some.inj (hreply _ he)

/-- A single survivor is the answer, or hides the key, whatever the policy. -/
theorem concludeGet_singleton (policy : Policy) (key : String) (n : Nat) (v : Version) :
    concludeGet policy key n [v] =
      if v.tombstone then .error (.notFound key) else .ok ⟨v.value, v.vector, n⟩ := rfl

/-- A read finds the version that all replicas hold, if as many of them as it
    needs serve it in time. -/
theorem get_of_unanimous {v : Version} (hsends : s.sends key = true)
    (hhonest : ∀ e, (plan e).Honest) (hlive : v.tombstone = false)
    (hholds : ∀ e ∈ (s.placement.replicasFor key).endpoints, c.holds? e key = some v)
    (hserved : s.settings.readLevel.required (s.placement.replicasFor key).size ≤
      (servedInTime plan (s.placement.replicasFor key) s.settings.readTimeout).length) :
    (s.get c plan key).result = .ok ⟨v.value, v.vector,
      s.settings.readLevel.required (s.placement.replicasFor key).size⟩ := by
  have hstores : ∀ e ∈ (s.placement.replicasFor key).endpoints, (c.store? e).isSome = true := by
    intro e he
    rcases Option.bind_eq_some_iff.mp (hholds e he) with ⟨st, hst, -⟩
    rw [hst]
    rfl
  rcases gathered?_of_served hsends hstores hserved with ⟨replies, hgathered⟩
  rw [(get_of_gathered hgathered).1, reconcile_of_unanimous hhonest hgathered hholds,
    concludeGet_singleton, hlive, (mem_gathered hhonest hgathered).1]
  rfl

/-- A version that all replicas acknowledge is what each of them holds that had
    nothing as new. -/
theorem holds?_of_acked {ticket : Ticket} {op : Operation} {v : Version} {a : Answer}
    (hhonest : ∀ e, (plan e).Honest) (hstamp : s.stamp? ticket op key = some v)
    (hlevel : s.settings.writeLevel = .all)
    (hok : (s.perform c plan ticket op).result = .ok a) {e : Endpoint}
    (he : e ∈ (s.placement.replicasFor key).endpoints)
    (hnews : ∀ u, c.holds? e key = some u → ¬ v.vector ≤ u.vector) :
    (s.perform c plan ticket op).cluster.holds? e key = some v := by
  rcases (perform_acked hhonest hstamp hok).2 with ⟨acked, hnodup, hlen, hacked⟩
  rw [hlevel] at hlen
  have hmem := ReplicaSet.mem_of_length hnodup (fun f hf => (hacked f hf).1) hlen he
  rcases (hacked e hmem).2 with ⟨st, hst, hholds⟩
  rw [hholds, Cluster.get?_put_of_news hst hnews]

/-- A version that all replicas acknowledge, and that none of them has anything
    as new as, is what all of them hold. -/
theorem holds?_of_acked_all {ticket : Ticket} {op : Operation} {v : Version} {a : Answer}
    (hhonest : ∀ e, (plan e).Honest) (hstamp : s.stamp? ticket op key = some v)
    (hlevel : s.settings.writeLevel = .all)
    (hok : (s.perform c plan ticket op).result = .ok a)
    (hnews : ∀ e u, c.holds? e key = some u → ¬ v.vector ≤ u.vector) :
    ∀ e ∈ (s.placement.replicasFor key).endpoints,
      (s.perform c plan ticket op).cluster.holds? e key = some v :=
  fun e he => holds?_of_acked hhonest hstamp hlevel hok he (hnews e)

end Session

/-- Of every count of a vector, some session of that name has made as many. -/
def Vouched (sys : System) (key : String) (vec : VersionVector) : Prop :=
  ∀ n, 0 < vec.counter n → ∃ who, sys.name? who = some n ∧
    vec.counter n ≤ (sys.history who key).counter n

/-- No count, at a replica or in a history, is beyond all sessions of its
    name. Names may be shared. -/
structure Grounded (key : String) (sys : System) : Prop where
  held : ∀ e v, sys.cluster.holds? e key = some v → Vouched sys key v.vector
  histories : ∀ who, Vouched sys key (sys.history who key)

/-- A session has counted as far for a key as every session of its name. -/
def Leads (sys : System) (key : String) (s : Session) : Prop :=
  ∀ t ∈ sys.sessions, t.settings.node = s.settings.node →
    (t.history key).counter s.settings.node ≤ (s.history key).counter s.settings.node

section Step

variable {m : Moment} {key : String}

/-- What sessions have vouched for they go on vouching for. -/
theorem Vouched.next {vec : VersionVector} (h : Vouched m.system key vec) :
    Vouched m.next key vec := by
  intro n hn
  rcases h n hn with ⟨who, hname, hle⟩
  refine ⟨who, ?_, Nat.le_trans hle (m.history_le_next who key n)⟩
  rw [System.name?, Moment.next, System.charter_step]
  exact hname

/-- A new version adds one to a count, and its session has made that one. -/
theorem Grounded.vouched_stamp (h : Grounded key m.system) {v : Version}
    (hstamp : m.stamp? key = some v) : Vouched m.next key v.vector := by
  rcases Moment.step_stamp hstamp with ⟨⟨name, hname, hvector⟩, hhistories, -⟩
  intro n hn
  by_cases hnn : n = name
  · refine ⟨m.move.who, ?_, ?_⟩
    · rw [System.name?, Moment.next, System.charter_step, hnn]
      exact hname
    · rw [hhistories, if_pos rfl]
  · rw [hvector, VersionVector.counter_update_other _ _ hnn] at hn ⊢
    exact (h.histories m.move.who).next n hn

/-- Every move keeps the invariant. -/
theorem Grounded.step (h : Grounded key m.system) (hhonest : ∀ e, (m.move.plan e).Honest) :
    Grounded key m.next := by
  cases hstamp : m.stamp? key with
  | some v =>
    have hnew := h.vouched_stamp hstamp
    have hhistories := (Moment.step_stamp hstamp).2.1
    constructor
    · intro e u hu
      rcases Moment.held_of_stamp hstamp hu with rfl | hold
      · exact hnew
      · exact (h.held e u hold).next
    · intro who
      rw [hhistories]
      by_cases hwho : who = m.move.who
      · rw [if_pos hwho]
        exact hnew
      · rw [if_neg hwho]
        exact (h.histories who).next
  | none =>
    cases hread : m.read? key with
    | some replies =>
      rcases Moment.step_read hread with ⟨-, hothers, hholds⟩
      constructor
      · intro e u hu
        exact (h.held e u ((hholds e).symm.trans hu)).next
      · intro who
        by_cases hwho : who = m.move.who
        · subst hwho
          intro n hn
          rcases Moment.counter_of_read hread n with hcount | ⟨v, hv, hcount⟩
          · rw [hcount] at hn ⊢
            exact (h.histories m.move.who).next n hn
          · rw [hcount] at hn ⊢
            rcases Moment.held_of_read hhonest hread hv with ⟨e, he⟩
            exact (h.held e v he).next n hn
        · rw [hothers who hwho]
          exact (h.histories who).next
    | none =>
      rcases Moment.step_other hstamp hread with ⟨hhistories, hholds⟩
      constructor
      · intro e u hu
        exact (h.held e u ((hholds e).symm.trans hu)).next
      · intro who
        rw [hhistories]
        exact (h.histories who).next

/-- A version of a session that has counted as far as its namesakes is news to
    every replica. -/
theorem Grounded.not_le_held {sys : System} (h : Grounded key sys) {s : Session}
    (hleads : Leads sys key s) {ticket : Ticket} {v : Version}
    (hvector : v.vector = s.nextVector ticket key) (e : Endpoint) (u : Version)
    (hu : sys.cluster.holds? e key = some u) : ¬ v.vector ≤ u.vector := by
  intro hle
  -- Its own count would be at most that of a namesake, which it has passed.
  have hown := hle s.settings.node
  rw [hvector, Session.nextVector, VersionVector.counter_update_self] at hown
  rcases h.held e u hu s.settings.node (by omega) with ⟨who, hname, hcount⟩
  rw [System.name?, System.charter?, Option.map_map, Option.map_eq_some_iff] at hname
  rcases hname with ⟨t, ht, hnode⟩
  have hbound := hleads t (List.mem_of_getElem? ht) hnode
  rw [System.history_of_session ht] at hcount
  omega

end Step

section Runs

variable {endpoints : List Endpoint} {clients : List (Settings × Placement)} {es : List Event}

/-- No run leaves a count that no session has made. -/
theorem grounded_run (hhonest : ∀ e ∈ es, e.Honest) (key : String) :
    Grounded key ((System.start endpoints clients).run es) := by
  refine (System.run_induction (P := fun _ sys => Grounded key sys) ?_ ?_ ?_).1
  · constructor
    · intro e v hv
      rw [System.holds?_start] at hv
      cases hv
    · intro who n hn
      rw [System.history_start, VersionVector.counter_empty] at hn
      exact absurd hn (Nat.lt_irrefl 0)
  · intro k m hm h
    exact h.step (System.honest_of_chronicle hhonest (List.mem_of_getElem? hm))
  · intro k sys who read write h
    have hvouched : ∀ vec, Vouched sys key vec → Vouched (sys.retune who read write) key vec := by
      intro vec hvec n hn
      rcases hvec n hn with ⟨other, hname, hle⟩
      refine ⟨other, ?_, ?_⟩
      · rw [System.name?, System.charter_retune]
        exact hname
      · rw [System.history_retune]
        exact hle
    constructor
    · intro e v hv
      exact hvouched _ (h.held e v hv)
    · intro other
      rw [System.history_retune]
      exact hvouched _ (h.histories other)

end Runs

namespace System

/-- A session finds what it has put. In whatever state a run has left the
    replicas: if a put succeeds at the level of all, by a session that has
    counted as far for the key as its namesakes, then the session's next read
    succeeds and finds the value under the vector that the put returned, at
    any level, as soon as so many replicas are served in time. -/
theorem get_after_put_all (endpoints : List Endpoint) (clients : List (Settings × Placement))
    (es : List Event) (hhonest : ∀ e ∈ es, e.Honest) (who : Nat) (s : Session)
    (hs : ((start endpoints clients).run es).sessions[who]? = some s)
    (hlevel : s.settings.writeLevel = .all) (key value : String)
    (hleads : Leads ((start endpoints clients).run es) key s)
    (plan : Endpoint → Plan) (hplan : ∀ e, (plan e).Honest) (ticket : Ticket) (a : Answer)
    (hok : (⟨(start endpoints clients).run es, ⟨who, .put key value, plan, ticket⟩⟩ :
      Moment).result? = some (.ok a))
    (level : Level) (plan' : Endpoint → Plan) (hplan' : ∀ e, (plan' e).Honest) (ticket' : Ticket)
    (hserved : level.required (s.placement.replicasFor key).size ≤
      (servedInTime plan' (s.placement.replicasFor key) s.settings.readTimeout).length) :
    ∃ w, a = .written w ∧
      (⟨(((start endpoints clients).run es).step ⟨who, .put key value, plan, ticket⟩).retune who
        (some level) none, ⟨who, .get key, plan', ticket'⟩⟩ : Moment).result? =
      some (.ok (.found ⟨value, w.vector,
        level.required (s.placement.replicasFor key).size⟩)) := by
  generalize hsys : (start endpoints clients).run es = sys at hs hleads hok ⊢
  rw [Moment.result?_eq (m := ⟨sys, ⟨who, .put key value, plan, ticket⟩⟩) hs,
    Option.some.injEq] at hok
  have hwrites : (Operation.put key value).writes? key = some (some value) := if_pos rfl
  have hsends := Session.sends_of_written hwrites hok
  have hstamp : s.stamp? ticket (.put key value) key =
      some (.live value (s.nextVector ticket key)) :=
    Session.stamp?_eq_some_iff.mpr ⟨hsends, some value, hwrites, rfl⟩
  have hgrounded : Grounded key sys := by
    rw [← hsys]
    exact grounded_run hhonest key
  have hholds := Session.holds?_of_acked_all hplan hstamp hlevel hok
    (hgrounded.not_le_held hleads rfl)
  refine ⟨_, (Session.perform_acked hplan hstamp hok).1, ?_⟩
  -- The session that reads is the one that has written, at its new level.
  have hsession : ((sys.step ⟨who, .put key value, plan, ticket⟩).retune who (some level)
      none).sessions[who]? =
      some ((s.setHistory key (s.nextVector ticket key)).setLevels (some level) none) := by
    rw [sessions_retune, if_pos rfl, sessions_step hs, if_pos rfl,
      (Session.perform_stamp sys.cluster plan hstamp).2.1]
    rfl
  have hcluster : ((sys.step ⟨who, .put key value, plan, ticket⟩).retune who (some level)
      none).cluster = (s.perform sys.cluster plan ticket (.put key value)).cluster :=
    cluster_step hs
  generalize (sys.step ⟨who, .put key value, plan, ticket⟩).retune who (some level) none = sys'
    at hsession hcluster ⊢
  rw [Moment.result?_eq (m := ⟨sys', ⟨who, .get key, plan', ticket'⟩⟩) hsession, hcluster]
  have hget := Session.get_of_unanimous
    (s := (s.setHistory key (s.nextVector ticket key)).setLevels (some level) none)
    hsends hplan' rfl hholds hserved
  exact congrArg (fun r => some (Except.map Answer.found r)) hget

/-- The second of two namesakes, if it has read before it puts a value. -/
theorem get_after_put_all_informed :
    let all : ReplicaSet := ⟨[⟨"a", 1⟩, ⟨"a", 2⟩], by decide⟩
    let sys := (start all.endpoints (standardClients all .all ["ann", "ann"])).run
      (promptly [(0, .connect), (0, .put "k" "first"), (1, .connect), (1, .get "k")])
    let plan : Endpoint → Plan := fun _ => ⟨some 0, .served⟩
    let ticket : Ticket := ⟨⟨0, 0⟩, ""⟩
    ∃ w, (⟨(sys.step ⟨1, .put "k" "second", plan, ticket⟩).retune 1 (some .one) none,
      ⟨1, .get "k", plan, ticket⟩⟩ : Moment).result? =
      some (.ok (.found ⟨"second", w, 1⟩)) := by
  intro all sys plan ticket
  have hplan : ∀ e, (plan e).Honest := fun e => ⟨by simp [plan], by simp [plan]⟩
  have hfacts : (sys.sessions[1]?).any (fun s => s.settings.writeLevel == .all &&
      s.placement == .uniform all && s.settings.readTimeout == 5000 &&
      sys.sessions.all fun t => decide (t.settings.node = s.settings.node →
        (t.history "k").counter s.settings.node ≤ (s.history "k").counter s.settings.node))
      = true := by cbv
  have hok : ((⟨sys, ⟨1, .put "k" "second", plan, ticket⟩⟩ : Moment).result?.any
      fun r => r.isOk) = true := by cbv
  rw [Option.any_eq_true] at hfacts hok
  rcases hfacts with ⟨s, hs, hfacts⟩
  simp only [Bool.and_eq_true, beq_iff_eq, List.all_eq_true, decide_eq_true_eq] at hfacts
  rcases hfacts with ⟨⟨⟨hlevel, hplacement⟩, htimeout⟩, hleads⟩
  rcases hok with ⟨r, hr, hr'⟩
  cases r with
  | error err => cases hr'
  | ok a =>
    have hserved : Level.one.required (s.placement.replicasFor "k").size ≤
        (servedInTime plan (s.placement.replicasFor "k") s.settings.readTimeout).length := by
      rw [hplacement, htimeout]
      decide
    rcases get_after_put_all all.endpoints _ _ (promptly_honest _) 1 s hs hlevel "k" "second"
      hleads plan hplan ticket a hr .one plan hplan ticket hserved with ⟨w, -, hget⟩
    rw [hplacement] at hget
    exact ⟨w.vector, hget⟩

/-- Two sessions go by one name, and the second puts a value without having
    looked. All acknowledge it and none takes it: the session reads the value
    that the first one has put. -/
theorem get_after_put_all_namesake :
    let all : ReplicaSet := ⟨[⟨"a", 1⟩, ⟨"a", 2⟩], by decide⟩
    let H := (start all.endpoints (standardClients all .all ["ann", "ann"])).chronicle
      (promptly [(0, .connect), (0, .put "k" "first"), (1, .connect), (1, .put "k" "second"),
        (1, .get "k")])
    let stamp := VersionVector.empty.update "ann" ⟨0, 0⟩
    H[3]?.bind Moment.result? = some (.ok (.written ⟨stamp, 2⟩)) ∧
    H[4]?.bind Moment.result? = some (.ok (.found ⟨"first", stamp, 2⟩)) :=
  ⟨by cbv, by cbv⟩

end System

end QuorumStore
