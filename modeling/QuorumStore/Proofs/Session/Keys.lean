import QuorumStore.Proofs.Session.Effects

/-!
# Keys

What an operation does to one key: to the session's history of it, and to the
versions that the replicas hold.

Seen from a single key there are three kinds of operation. A write of that key
that is sent out puts a version under a history that it has just advanced. A
read of it that gathers its replies takes the vectors of all of them into the
history. Everything else — another key, a greeting, a read that falls short,
an operation of a session that has not connected — changes nothing at all.
`stamp?` and `read?` tell the three apart, and each has its own lemma, so the
theory of runs never looks into an operation again.

## Main definitions

* `Operation.writes?`: What an operation writes under a key.
* `Session.stamp?`: The version that an operation sends out for a key.
* `Session.read?`: The replies that an operation gathers for a key.

## Theorems

* `Session.stamp?_eq_some_iff`: Which operations send a version, and which.
* `Session.sends_of_written`: A write that succeeds was sent out.
* `Session.perform_stamp`, `Session.store?_perform_stamp`: What a write that is
  sent out does.
* `Session.perform_acked`: Who has handled a write that succeeds.
* `Session.perform_read`: What a read that gathers its replies does.
* `Session.perform_other`: Everything else changes nothing.
* `Session.perform_keeps`: What a session has been told stays.
-/

namespace QuorumStore

/-- What an operation writes under a key: a value, or the mark that there is
    none. -/
def Operation.writes? (op : Operation) (key : String) : Option (Option String) :=
  match op with
  | .put k value => if k = key then some (some value) else none
  | .delete k => if k = key then some none else none
  | _ => none

namespace Session

variable {s : Session} {c : Cluster} {plan : Endpoint → Plan} {ticket : Ticket}
  {op : Operation} {key : String}

/-- The version of a key that an operation sends out. -/
def stamp? (s : Session) (ticket : Ticket) (op : Operation) (key : String) : Option Version :=
  (s.outgoing? ticket op).bind fun sent => sent.1.offers? key

/-- The replies about a key that an operation gathers. -/
def read? (s : Session) (c : Cluster) (plan : Endpoint → Plan) (op : Operation)
    (key : String) : Option (List (Endpoint × Option Version)) :=
  if op = .get key then s.gathered? c plan key else none

theorem stamp?_eq_some_iff {v : Version} :
    s.stamp? ticket op key = some v ↔ s.sends key = true ∧
      ∃ value, op.writes? key = some value ∧ v = versionOf value (s.nextVector ticket key) := by
  -- The two kinds of write differ in their value only.
  have hwrite : ∀ (k : String) (value : Option String),
      ((if s.connected = true then
          if (s.placement.replicasFor k).isEmpty = true then none
          else some (s.writeRequest ticket k value, s.placement.replicasFor k)
        else none).bind fun sent => sent.1.offers? key) = some v ↔
      s.sends key = true ∧ k = key ∧ v = versionOf value (s.nextVector ticket key) := by
    intro k value
    rw [sends_iff]
    by_cases hk : k = key
    · subst hk
      by_cases hconn : s.connected = true
      · by_cases hempty : (s.placement.replicasFor k).isEmpty = true
        · simp [hconn, hempty]
        · simp [hconn, hempty, Request.offers?, writeRequest, eq_comm]
      · simp [hconn]
    · by_cases hconn : s.connected = true
      · by_cases hempty : (s.placement.replicasFor k).isEmpty = true
        · simp [hconn, hempty, hk]
        · simp [hconn, hempty, Request.offers?, writeRequest, hk]
      · simp [hconn, hk]
  -- The other requests carry no version.
  have hquiet : ∀ (b : Bool) (r : Request) (set : ReplicaSet), r.offers? key = none →
      ((if b = true then if set.isEmpty = true then none else some (r, set) else none).bind
        fun sent => sent.1.offers? key) = none := by
    intro b r set hr
    cases b <;> by_cases hempty : set.isEmpty = true <;> simp [hempty, hr]
  cases op with
  | connect =>
    have h := hquiet true .ping s.placement.everywhere rfl
    simp only [if_true] at h
    simp [stamp?, outgoing?, h, Operation.writes?]
  | get k => simp [stamp?, outgoing?, hquiet s.connected (.get k) _ rfl, Operation.writes?]
  | stat => simp [stamp?, outgoing?, hquiet s.connected .stat _ rfl, Operation.writes?]
  | put k value =>
    refine (hwrite k (some value)).trans ?_
    by_cases hk : k = key <;> simp [Operation.writes?, hk]
  | delete k =>
    refine (hwrite k none).trans ?_
    by_cases hk : k = key <;> simp [Operation.writes?, hk]

theorem read?_eq_some_iff {replies : List (Endpoint × Option Version)} :
    s.read? c plan op key = some replies ↔
      op = .get key ∧ s.gathered? c plan key = some replies := by
  unfold read?
  by_cases h : op = .get key <;> simp [h]

/-- An operation that writes does what `write` does. -/
theorem perform_write {value : Option String} (h : op.writes? key = some value) :
    s.perform c plan ticket op = (s.write c plan ticket key value).map .written := by
  cases op with
  | put k v =>
    by_cases hk : k = key
    · rw [Operation.writes?, if_pos hk, Option.some.injEq] at h
      rw [← h, ← hk]
      rfl
    · rw [Operation.writes?, if_neg hk] at h
      cases h
  | delete k =>
    by_cases hk : k = key
    · rw [Operation.writes?, if_pos hk, Option.some.injEq] at h
      rw [← h, ← hk]
      rfl
    · rw [Operation.writes?, if_neg hk] at h
      cases h
  | connect => cases h
  | get k => cases h
  | stat => cases h

/-- A write that succeeds was sent out. -/
theorem sends_of_written {value : Option String} {a : Answer} (h : op.writes? key = some value)
    (hok : (s.perform c plan ticket op).result = .ok a) : s.sends key = true := by
  by_contra hnot
  rw [perform_write h, write_of_not_sends c plan ticket value (Bool.eq_false_iff.mpr hnot)] at hok
  cases hok

/-- A write that is sent out advances the history of its key and puts a
    version under it; every replica is left as it is or with something that
    covers the version. -/
theorem perform_stamp (c : Cluster) (plan : Endpoint → Plan) {v : Version}
    (h : s.stamp? ticket op key = some v) :
    v.vector = s.nextVector ticket key ∧
    (s.perform c plan ticket op).session = s.setHistory key v.vector ∧
    ∀ e, (s.perform c plan ticket op).cluster.holds? e key = c.holds? e key ∨
      ∃ u, (s.perform c plan ticket op).cluster.holds? e key = some u ∧
        v.vector ≤ u.vector ∧ (u = v ∨ c.holds? e key = some u) := by
  rcases stamp?_eq_some_iff.mp h with ⟨hsends, value, hwrites, rfl⟩
  rw [perform_write hwrites, write_of_sends hsends]
  refine ⟨versionOf_vector _ _, ?_, fun e => ?_⟩
  · rw [versionOf_vector]
    rfl
  · exact Cluster.holds?_fanOut_offer ((offers?_writeRequest s ticket key value key).trans
      (if_pos rfl)) e

/-- The version that is sent out is offered to the replicas of its key: those
    that the calls reach have put it into their stores, all others are as they
    were. -/
theorem store?_perform_stamp (c : Cluster) (plan : Endpoint → Plan) {v : Version}
    (h : s.stamp? ticket op key = some v) (e : Endpoint) :
    (s.perform c plan ticket op).cluster.store? e =
      if e ∈ (s.placement.replicasFor key).endpoints ∧
          (plan e).lands s.settings.writeTimeout (s.perform c plan ticket op).elapsed = true
      then (c.store? e).map (·.put key v)
      else c.store? e := by
  rcases stamp?_eq_some_iff.mp h with ⟨hsends, value, hwrites, rfl⟩
  rw [perform_write hwrites, write_of_sends hsends]
  exact Cluster.store?_fanOut e

/-- A write that succeeds was handled by as many replicas as its level asks
    for. -/
theorem perform_acked {v : Version} {a : Answer} (hhonest : ∀ e, (plan e).Honest)
    (h : s.stamp? ticket op key = some v) (hok : (s.perform c plan ticket op).result = .ok a) :
    a = .written ⟨v.vector,
      s.settings.writeLevel.required (s.placement.replicasFor key).size⟩ ∧
    ∃ acked : List Endpoint, acked.Nodup ∧
      acked.length = s.settings.writeLevel.required (s.placement.replicasFor key).size ∧
      ∀ e ∈ acked, e ∈ (s.placement.replicasFor key).endpoints ∧
        ∃ st, c.store? e = some st ∧
          (s.perform c plan ticket op).cluster.holds? e key = (st.put key v).get? key := by
  rcases stamp?_eq_some_iff.mp h with ⟨hsends, value, hwrites, rfl⟩
  rw [perform_write hwrites, write_of_sends hsends] at hok ⊢
  cases hr : (s.writeCalls c plan ticket key value).1.result with
  | error short =>
    simp only [Effect.map, hr] at hok
    cases hok
  | ok replies =>
    simp only [Effect.map, hr] at hok
    rcases Cluster.fanOut_replies hr with ⟨hlen, hnodup, hall⟩
    refine ⟨?_, replies.map Prod.fst, hnodup, (List.length_map _).trans hlen, ?_⟩
    · rw [← Except.ok.inj hok, versionOf_vector, hlen]
    · intro e he
      rcases List.mem_map.mp he with ⟨p, hp, rfl⟩
      rcases hall p hp with ⟨hmem, hanswer, t, hdue, ht, hend⟩
      -- Only an acknowledgement is an acceptable response.
      have haccept : ∀ r, acceptAck (if value.isSome then .put else .delete) r = .ok p.2 →
          r = .ack ∨ ∃ v, r = .value v := by
        intro r hr
        cases r with
        | ack => exact .inl rfl
        | _ => cases hr
      rcases Cluster.answer?_of_honest (hhonest p.1) haccept hanswer with ⟨hfate, st, hst, -⟩
      refine ⟨hmem, st, hst, ?_⟩
      -- It was due by the end of the write, so the replica has handled it.
      have hlands : (plan p.1).lands s.settings.writeTimeout
          (s.writeCalls c plan ticket key value).1.elapsed = true :=
        Plan.lands_iff.mpr ⟨by rw [hfate]; rfl, t, hdue, ht, hend⟩
      exact congrArg (Option.bind · (Store.get? · key))
        ((Cluster.store?_fanOut p.1).trans ((if_pos ⟨hmem, hlands⟩).trans (congrArg _ hst)))

/-- A read that gathers its replies takes their versions into the history of
    its key, and answers by them. -/
theorem perform_read (ticket : Ticket) {replies : List (Endpoint × Option Version)}
    (h : s.read? c plan op key = some replies) :
    (s.perform c plan ticket op).result = (concludeGet s.settings.policy key replies.length
      (Version.reconcile (versions replies))).map .found ∧
    (s.perform c plan ticket op).session = s.observe key (Version.reconcile (versions replies)) ∧
    ∀ e, (s.perform c plan ticket op).cluster.holds? e key = c.holds? e key := by
  rcases read?_eq_some_iff.mp h with ⟨rfl, hgathered⟩
  rcases get_of_gathered hgathered with ⟨hresult, hsession⟩
  refine ⟨?_, hsession, fun e => holds?_get e key⟩
  rw [← hresult]
  rfl

/-- An operation that neither sends a version of a key nor gathers replies
    about it changes nothing about the key. -/
theorem perform_other (hstamp : s.stamp? ticket op key = none)
    (hread : s.read? c plan op key = none) :
    (s.perform c plan ticket op).session.history key = s.history key ∧
    ∀ e, (s.perform c plan ticket op).cluster.holds? e key = c.holds? e key := by
  have hwrite : ∀ (k : String) (value : Option String), op.writes? k = some value →
      (s.write c plan ticket k value).session.history key = s.history key ∧
      ∀ e, (s.write c plan ticket k value).cluster.holds? e key = c.holds? e key := by
    intro k value hwrites
    by_cases hk : key = k
    · subst hk
      -- The write does not come to anything, or it would have sent a version.
      have hsends : s.sends key = false := by
        rw [Bool.eq_false_iff]
        intro hsends
        rw [stamp?_eq_some_iff.mpr ⟨hsends, value, hwrites, rfl⟩] at hstamp
        cases hstamp
      rw [write_of_not_sends c plan ticket value hsends]
      exact ⟨rfl, fun e => rfl⟩
    · exact write_other hk
  cases op with
  | connect =>
    rcases connect_quiet s c plan with ⟨⟨b, hsession⟩, hholds⟩
    exact ⟨(congrArg (history · key) hsession).trans rfl, fun e => hholds e key⟩
  | get k =>
    refine ⟨?_, fun e => holds?_get e key⟩
    by_cases hk : key = k
    · subst hk
      rw [read?, if_pos rfl] at hread
      exact congrArg (history · key) (get_of_not_gathered hread).1
    · exact history_get_other hk
  | put k value => exact hwrite k (some value) (if_pos rfl)
  | delete k => exact hwrite k none (if_pos rfl)
  | stat =>
    rcases stat_quiet s c plan with ⟨hsession, hholds⟩
    exact ⟨congrArg (history · key) hsession, fun e => hholds e key⟩

/-- No operation changes what a session has been told. -/
theorem perform_keeps (s : Session) (c : Cluster) (plan : Endpoint → Plan) (ticket : Ticket)
    (op : Operation) :
    (s.perform c plan ticket op).session.settings = s.settings ∧
    (s.perform c plan ticket op).session.placement = s.placement := by
  -- Greetings, reads and status leave the session or what it was told alone.
  have hkeep : ∀ s' : Session, s' = s → s'.settings = s.settings ∧ s'.placement = s.placement := by
    intro s' h
    rw [h]
    exact ⟨rfl, rfl⟩
  have hwrite : ∀ (k : String) (value : Option String),
      (s.write c plan ticket k value).session.settings = s.settings ∧
      (s.write c plan ticket k value).session.placement = s.placement := by
    intro k value
    cases hsends : s.sends k with
    | false =>
      rw [write_of_not_sends c plan ticket value hsends]
      exact ⟨rfl, rfl⟩
    | true =>
      rw [write_of_sends hsends]
      exact ⟨rfl, rfl⟩
  cases op with
  | connect =>
    rcases (connect_quiet s c plan).1 with ⟨b, h⟩
    exact ⟨(congrArg settings h).trans rfl, (congrArg placement h).trans rfl⟩
  | get k =>
    cases hgathered : s.gathered? c plan k with
    | none => exact hkeep _ (get_of_not_gathered hgathered).1
    | some replies =>
      have h := (get_of_gathered hgathered).2
      have hobserve := settings_observe s k (Version.reconcile (versions replies))
      exact ⟨(congrArg settings h).trans hobserve.1, (congrArg placement h).trans hobserve.2⟩
  | put k value => exact hwrite k (some value)
  | delete k => exact hwrite k none
  | stat => exact hkeep _ (stat_quiet s c plan).1

end Session

end QuorumStore
