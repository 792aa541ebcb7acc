import Mathlib.Order.MinMax
import QuorumStore.Operation
import QuorumStore.Proofs.Cluster.FanOut
import QuorumStore.Proofs.Version.Frontier

/-!
# Effects of Sessions

What the operations of a session come to, in terms of the calls they make.

A session that has connected and has replicas for a key sends something about
it; otherwise it refuses and changes nothing. Once something is sent, a write
has advanced its history whatever becomes of the calls, while a read has an
effect only if it gathers its replies. So a write is described by `sends`, and
a read by `gathered?`.

A read takes in only the survivors of reconciliation, but the survivors cover
everything that was gathered. `le_counter_history_observe` says it of all
gathered versions, and dropped versions leave the theory here.

## Main definitions

* `versions`: The versions among replies.
* `Session.sends`: The session can send something about a key.
* `Session.refusal`: Why it cannot.
* `Session.readCalls`, `Session.writeCalls`: The calls of an operation.
* `Session.gathered?`: The replies that a completed read rests on.

## Theorems

* `Session.get_of_gathered`, `Session.get_of_not_gathered`: The two outcomes of
  a read.
* `Session.gathered?_isSome_iff`: Which reads gather their replies.
* `Session.mem_gathered`, `Session.held_of_gathered`: Gathered replies are what
  replicas hold.
* `Session.write_of_sends`, `Session.write_of_not_sends`: The two outcomes of a
  write.
* `Session.le_counter_history_observe`: A read takes in all it has gathered.
* `Session.holds?_get`, `Session.write_other`, `Session.connect_quiet`,
  `Session.stat_quiet`: What operations leave alone.
-/

namespace QuorumStore

/-- The versions among the replies to a read. -/
def versions (replies : List (Endpoint × Option Version)) : List Version :=
  replies.filterMap (·.2)

theorem mem_versions {replies : List (Endpoint × Option Version)} {v : Version} :
    v ∈ versions replies ↔ ∃ e, (e, some v) ∈ replies := by
  unfold versions
  rw [List.mem_filterMap]
  constructor
  · rintro ⟨⟨e, u⟩, hmem, rfl⟩
    exact ⟨e, hmem⟩
  · rintro ⟨e, hmem⟩
    exact ⟨(e, some v), hmem, rfl⟩

namespace Session

variable {s : Session} {c : Cluster} {plan : Endpoint → Plan} {ticket : Ticket}
  {key : String}

/-- The session has connected, and there are replicas for the key. -/
def sends (s : Session) (key : String) : Bool :=
  s.connected && !(s.placement.replicasFor key).isEmpty

theorem sends_iff :
    s.sends key = true ↔
      s.connected = true ∧ (s.placement.replicasFor key).isEmpty = false := by
  rw [sends, Bool.and_eq_true, Bool.not_eq_true']

theorem sends_eq_false_iff :
    s.sends key = false ↔
      s.connected = false ∨ (s.placement.replicasFor key).isEmpty = true := by
  rw [sends, Bool.and_eq_false_iff, Bool.not_eq_false']

/-- Why a session does not send anything about a key. -/
def refusal (s : Session) : OpError := if s.connected then .noReplicas else .notConnected

/-- The calls of a read. -/
def readCalls (s : Session) (c : Cluster) (plan : Endpoint → Plan) (key : String) :
    Outcome (Option Version) × Cluster :=
  c.fanOut plan (s.placement.replicasFor key) (.get key)
    (s.settings.readLevel.required (s.placement.replicasFor key).size) s.settings.readTimeout
    acceptValue

/-- The calls of a write. -/
def writeCalls (s : Session) (c : Cluster) (plan : Endpoint → Plan) (ticket : Ticket)
    (key : String) (value : Option String) : Outcome Unit × Cluster :=
  c.fanOut plan (s.placement.replicasFor key) (s.writeRequest ticket key value)
    (s.settings.writeLevel.required (s.placement.replicasFor key).size) s.settings.writeTimeout
    (acceptAck (if value.isSome then .put else .delete))

/-- The replies that a read of a key gathers, each with its replica; none if
    the read is not sent or its replies fall short. -/
def gathered? (s : Session) (c : Cluster) (plan : Endpoint → Plan) (key : String) :
    Option (List (Endpoint × Option Version)) :=
  if s.sends key then (s.readCalls c plan key).1.result.toOption else none

theorem gathered?_eq_some_iff {replies : List (Endpoint × Option Version)} :
    s.gathered? c plan key = some replies ↔
      s.sends key = true ∧ (s.readCalls c plan key).1.result = .ok replies := by
  unfold gathered?
  cases s.sends key <;> cases (s.readCalls c plan key).1.result <;> simp [Except.toOption]

theorem get_of_sends (h : s.sends key = true) :
    s.get c plan key =
      match (s.readCalls c plan key).1.result with
      | .error short =>
        ⟨.error (shortfallError .get
            (s.settings.readLevel.required (s.placement.replicasFor key).size) short), s,
          (s.readCalls c plan key).2,
          { gets := 1 : Counters }.add (endingCounters (s.readCalls c plan key).1.ending),
          (s.readCalls c plan key).1.elapsed⟩
      | .ok replies =>
        ⟨concludeGet s.settings.policy key replies.length
            (Version.reconcile (versions replies)),
          s.observe key (Version.reconcile (versions replies)), (s.readCalls c plan key).2,
          { gets := 1 : Counters }.add (conflictCounters (concludeGet s.settings.policy key
            replies.length (Version.reconcile (versions replies)))),
          (s.readCalls c plan key).1.elapsed⟩ := by
  -- Both guards let it pass, and what remains is what became of the calls.
  rcases sends_iff.mp h with ⟨hconn, hsome⟩
  simp only [get, hconn, hsome, Bool.not_true, Bool.false_eq_true, if_false]
  rfl

theorem get_of_not_sends (c : Cluster) (plan : Endpoint → Plan) (h : s.sends key = false) :
    s.get c plan key = s.refuse c (if s.connected then { gets := 1 } else {}) s.refusal := by
  rcases sends_eq_false_iff.mp h with hconn | hempty
  · simp [get, refusal, hconn]
  · cases hconn : s.connected <;> simp [get, refusal, hconn, hempty]

theorem write_of_sends {value : Option String} (h : s.sends key = true) :
    s.write c plan ticket key value =
      ⟨match (s.writeCalls c plan ticket key value).1.result with
        | .error short => .error (shortfallError (if value.isSome then .put else .delete)
            (s.settings.writeLevel.required (s.placement.replicasFor key).size) short)
        | .ok replies => .ok ⟨s.nextVector ticket key, replies.length⟩,
        s.setHistory key (s.nextVector ticket key), (s.writeCalls c plan ticket key value).2,
        (if value.isSome then { puts := 1 : Counters } else { deletes := 1 }).add
          (endingCounters (s.writeCalls c plan ticket key value).1.ending),
        (s.writeCalls c plan ticket key value).1.elapsed⟩ := by
  rcases sends_iff.mp h with ⟨hconn, hsome⟩
  simp only [write, hconn, hsome, Bool.not_true, Bool.false_eq_true, if_false]
  rfl

theorem write_of_not_sends (c : Cluster) (plan : Endpoint → Plan) (ticket : Ticket)
    (value : Option String) (h : s.sends key = false) :
    s.write c plan ticket key value = s.refuse c (if s.connected then
      if value.isSome then { puts := 1 } else { deletes := 1 } else {}) s.refusal := by
  rcases sends_eq_false_iff.mp h with hconn | hempty
  · simp [write, refusal, hconn]
  · cases hconn : s.connected <;> simp [write, refusal, hconn, hempty]

/-- A read that has gathered its replies reconciles their versions, remembers
    the survivors and answers by them. -/
theorem get_of_gathered {replies : List (Endpoint × Option Version)}
    (h : s.gathered? c plan key = some replies) :
    (s.get c plan key).result = concludeGet s.settings.policy key replies.length
      (Version.reconcile (versions replies)) ∧
    (s.get c plan key).session = s.observe key (Version.reconcile (versions replies)) := by
  rcases gathered?_eq_some_iff.mp h with ⟨hsends, hr⟩
  rw [get_of_sends hsends, hr]
  exact ⟨rfl, rfl⟩

/-- A read without its replies changes nothing, and does not answer as one
    that has them does. -/
theorem get_of_not_gathered (h : s.gathered? c plan key = none) :
    (s.get c plan key).session = s ∧
    ∃ e, (s.get c plan key).result = .error e ∧
      (∀ k, e ≠ .notFound k) ∧ ∀ k siblings, e ≠ .conflict k siblings := by
  cases hsends : s.sends key with
  | false =>
    rw [get_of_not_sends c plan hsends]
    refine ⟨rfl, s.refusal, rfl, ?_⟩
    unfold refusal
    cases s.connected <;> simp
  | true =>
    rw [get_of_sends hsends]
    cases hr : (s.readCalls c plan key).1.result with
    | error short =>
      refine ⟨rfl, _, rfl, ?_⟩
      cases short <;> simp [shortfallError]
    | ok replies =>
      rw [gathered?_eq_some_iff.mpr ⟨hsends, hr⟩] at h
      cases h

/-- A read gathers its replies exactly when it finds a value, finds nothing or
    meets a conflict. -/
theorem gathered?_isSome_iff :
    (s.gathered? c plan key).isSome = true ↔
      (∃ f, (s.get c plan key).result = .ok f) ∨
      (∃ k, (s.get c plan key).result = .error (.notFound k)) ∨
      ∃ k siblings, (s.get c plan key).result = .error (.conflict k siblings) := by
  cases h : s.gathered? c plan key with
  | none =>
    -- A refusal or a shortfall is none of the three.
    rcases get_of_not_gathered h with ⟨-, e, hr, hfound, hconflict⟩
    simp [hr, hfound, hconflict]
  | some replies =>
    -- However many survive, the answer is one of the three.
    rw [(get_of_gathered h).1, concludeGet]
    simp only [Option.isSome_some, true_iff]
    cases Version.resolve s.settings.policy (Version.reconcile (versions replies)) with
    | missing => simp
    | conflict siblings => simp
    | winner v => cases hv : v.tombstone <;> simp [hv]

/-- Where conflicts are surfaced, the number of survivors says what a read
    comes to, and a single one is the answer or hides the key. -/
theorem concludeGet_surface (key : String) (n : Nat) (survivors : List Version) :
    (survivors = [] ∧ concludeGet .surface key n survivors = .error (.notFound key)) ∨
    (∃ t, survivors = [t] ∧ t.tombstone = true ∧
      concludeGet .surface key n survivors = .error (.notFound key)) ∨
    (∃ t, survivors = [t] ∧ t.tombstone = false ∧
      concludeGet .surface key n survivors = .ok ⟨t.value, t.vector, n⟩) ∨
    concludeGet .surface key n survivors = .error (.conflict key survivors) := by
  rcases survivors with _ | ⟨v, _ | ⟨w, vs⟩⟩
  · exact .inl ⟨rfl, rfl⟩
  · cases hv : v.tombstone with
    | true => exact .inr (.inl ⟨v, rfl, hv, by simp [concludeGet, Version.resolve, hv]⟩)
    | false => exact .inr (.inr (.inl ⟨v, rfl, hv, by simp [concludeGet, Version.resolve, hv]⟩))
  · exact .inr (.inr (.inr rfl))

/-- A conflict lists the survivors. -/
theorem concludeGet_conflict {policy : Policy} {n : Nat} {survivors siblings : List Version}
    {k : String} (h : concludeGet policy key n survivors = .error (.conflict k siblings)) :
    siblings = survivors := by
  unfold concludeGet Version.resolve at h
  -- No conflict comes of a single survivor, nor of a policy that picks one.
  rcases survivors with _ | ⟨v, _ | ⟨w, vs⟩⟩
  · simp at h
  · cases hv : v.tombstone <;> simp [hv] at h
  · cases policy with
    | surface =>
      simp only [Except.error.injEq, OpError.conflict.injEq] at h
      exact h.2.symm
    | highestNode =>
      cases hbest : Version.highestNode? (v :: w :: vs) with
      | none => simp [hbest] at h
      | some b => cases hb : b.tombstone <;> simp [hbest, hb] at h

/-- What a read gathers is what its replicas hold, where no version is made
    up. -/
theorem mem_gathered_of_truthful {replies : List (Endpoint × Option Version)}
    (htruthful : ∀ e, (plan e).Truthful) (h : s.gathered? c plan key = some replies) :
    replies.length = s.settings.readLevel.required (s.placement.replicasFor key).size ∧
    (replies.map Prod.fst).Nodup ∧
    ∀ p ∈ replies, p.1 ∈ (s.placement.replicasFor key).endpoints ∧ c.holds? p.1 key = p.2 := by
  rcases gathered?_eq_some_iff.mp h with ⟨-, hr⟩
  rcases Cluster.fanOut_replies hr with ⟨hlen, hnodup, hall⟩
  refine ⟨hlen, hnodup, fun p hp => ?_⟩
  rcases hall p hp with ⟨hmem, hanswer, -⟩
  -- Only a version, or the lack of one, is an acceptable response.
  have hgiven : ∀ r, (plan p.1).fate = .answered r → acceptValue r ≠ .ok p.2 := by
    intro r hfate hr
    cases r with
    | value v => exact htruthful p.1 v hfate
    | _ => cases hr
  rcases Cluster.answer?_of_served hgiven hanswer with ⟨-, st, hst, hval⟩
  refine ⟨hmem, ?_⟩
  rw [Cluster.holds?, hst]
  exact Except.ok.inj hval

/-- What an honest read gathers is what its replicas hold. -/
theorem mem_gathered {replies : List (Endpoint × Option Version)}
    (hhonest : ∀ e, (plan e).Honest) (h : s.gathered? c plan key = some replies) :
    replies.length = s.settings.readLevel.required (s.placement.replicasFor key).size ∧
    (replies.map Prod.fst).Nodup ∧
    ∀ p ∈ replies, p.1 ∈ (s.placement.replicasFor key).endpoints ∧ c.holds? p.1 key = p.2 :=
  mem_gathered_of_truthful (fun e => (hhonest e).truthful) h

/-- Every version that an honest read gathers is held by some replica. -/
theorem held_of_gathered {replies : List (Endpoint × Option Version)}
    (hhonest : ∀ e, (plan e).Honest) (h : s.gathered? c plan key = some replies) {v : Version}
    (hv : v ∈ versions replies) : ∃ e, c.holds? e key = some v := by
  rcases mem_versions.mp hv with ⟨e, he⟩
  exact ⟨e, ((mem_gathered hhonest h).2.2 _ he).2⟩

theorem history_setHistory_self (s : Session) (key : String) (v : VersionVector) :
    (s.setHistory key v).history key = v := by
  rw [history, setHistory, Table.get?_insert, if_pos rfl]
  rfl

theorem history_setHistory_other (s : Session) {key other : String} (v : VersionVector)
    (h : other ≠ key) : (s.setHistory key v).history other = s.history other := by
  rw [history, setHistory, Table.get?_insert, if_neg h]
  rfl

private theorem le_counter_foldl_merge (ws : List Version) (v : VersionVector) (node : String)
    (x : Nat) :
    x ≤ (ws.foldl (fun v w => v.merge w.vector) v).counter node ↔
      x ≤ v.counter node ∨ ∃ w ∈ ws, x ≤ w.vector.counter node := by
  induction ws generalizing v with
  | nil => simp
  | cons w ws ih =>
    rw [List.foldl_cons, ih, VersionVector.counter_merge, le_max_iff, List.exists_mem_cons_iff,
      or_assoc]

/-- A read takes in all it has gathered: each count of the new history is one
    of the old history or of a gathered version, and the largest of them. -/
theorem le_counter_history_observe (s : Session) (key : String) (vs : List Version)
    (node : String) (x : Nat) :
    x ≤ ((s.observe key (Version.reconcile vs)).history key).counter node ↔
      x ≤ (s.history key).counter node ∨ ∃ v ∈ vs, x ≤ v.vector.counter node := by
  have h := Version.frontier_reconcile vs
  -- The survivors count as much as everything that was gathered.
  have hsurvive : (∃ w ∈ Version.reconcile vs, x ≤ w.vector.counter node) ↔
      ∃ v ∈ vs, x ≤ v.vector.counter node := by
    constructor
    · rintro ⟨w, hw, hx⟩
      exact ⟨w, h.sound w hw, hx⟩
    · rintro ⟨v, hv, hx⟩
      rcases h.covers v hv with ⟨w, hw, hvw⟩
      exact ⟨w, hw, Nat.le_trans hx (hvw node)⟩
  rw [← hsurvive, observe]
  by_cases hempty : (Version.reconcile vs).isEmpty = true
  · -- Nothing survives only where nothing was gathered.
    rw [if_pos hempty, List.isEmpty_iff.mp hempty]
    simp
  · rw [if_neg hempty, history_setHistory_self, le_counter_foldl_merge]

theorem history_observe_other (s : Session) {key other : String} (survivors : List Version)
    (h : other ≠ key) : (s.observe key survivors).history other = s.history other := by
  unfold observe
  by_cases hempty : survivors.isEmpty = true
  · rw [if_pos hempty]
  · rw [if_neg hempty, history_setHistory_other s _ h]

theorem settings_observe (s : Session) (key : String) (survivors : List Version) :
    (s.observe key survivors).settings = s.settings ∧
    (s.observe key survivors).placement = s.placement := by
  unfold observe
  by_cases hempty : survivors.isEmpty = true
  · rw [if_pos hempty]
    exact ⟨rfl, rfl⟩
  · rw [if_neg hempty]
    exact ⟨rfl, rfl⟩

theorem versionOf_vector (value : Option String) (v : VersionVector) :
    (versionOf value v).vector = v := by
  cases value <;> rfl

theorem offers?_writeRequest (s : Session) (ticket : Ticket) (k : String)
    (value : Option String) (key : String) :
    (s.writeRequest ticket k value).offers? key =
      if k = key then some (versionOf value (s.nextVector ticket k)) else none := rfl

/-- A read leaves all replicas as they are. -/
theorem holds?_get (e : Endpoint) (k : String) :
    (s.get c plan key).cluster.holds? e k = c.holds? e k := by
  cases hsends : s.sends key with
  | false =>
    rw [get_of_not_sends c plan hsends]
    rfl
  | true =>
    rw [get_of_sends hsends]
    cases (s.readCalls c plan key).1.result <;> exact Cluster.holds?_fanOut rfl e

/-- A read of another key leaves a history alone. -/
theorem history_get_other {k : String} (h : k ≠ key) :
    (s.get c plan key).session.history k = s.history k := by
  cases hgathered : s.gathered? c plan key with
  | none => rw [(get_of_not_gathered hgathered).1]
  | some replies => rw [(get_of_gathered hgathered).2, history_observe_other s _ h]

/-- A write of one key leaves the others alone. -/
theorem write_other {value : Option String} {k : String} (h : k ≠ key) :
    (s.write c plan ticket key value).session.history k = s.history k ∧
    ∀ e, (s.write c plan ticket key value).cluster.holds? e k = c.holds? e k := by
  cases hsends : s.sends key with
  | false =>
    rw [write_of_not_sends c plan ticket value hsends]
    exact ⟨rfl, fun e => rfl⟩
  | true =>
    rw [write_of_sends hsends]
    exact ⟨history_setHistory_other s _ h,
      fun e => Cluster.holds?_fanOut ((offers?_writeRequest s ticket key value k).trans
        (if_neg (Ne.symm h))) e⟩

/-- A greeting marks the session as connected, at most. -/
theorem connect_quiet (s : Session) (c : Cluster) (plan : Endpoint → Plan) :
    (∃ b, (s.connect c plan).session = { s with connected := b }) ∧
    ∀ e key, (s.connect c plan).cluster.holds? e key = c.holds? e key := by
  unfold connect
  by_cases hempty : s.placement.everywhere.isEmpty = true
  · simp only [hempty, if_true]
    exact ⟨⟨s.connected, rfl⟩, fun e key => rfl⟩
  · simp only [hempty, Bool.false_eq_true, if_false]
    split
    · exact ⟨⟨s.connected, rfl⟩, fun e key => Cluster.holds?_askEach rfl _ e⟩
    · exact ⟨⟨true, rfl⟩, fun e key => Cluster.holds?_askEach rfl _ e⟩

/-- Asking for status changes nothing. -/
theorem stat_quiet (s : Session) (c : Cluster) (plan : Endpoint → Plan) :
    (s.stat c plan).session = s ∧
    ∀ e key, (s.stat c plan).cluster.holds? e key = c.holds? e key := by
  unfold stat
  by_cases hconn : s.connected = true
  · simp only [hconn, Bool.not_true, Bool.false_eq_true, if_false]
    exact ⟨trivial, fun e key => Cluster.holds?_askEach rfl _ e⟩
  · simp only [hconn, Bool.not_false, if_true]
    exact ⟨rfl, fun e key => rfl⟩

end Session

end QuorumStore
