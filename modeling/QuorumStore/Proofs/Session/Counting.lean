import QuorumStore.Proofs.Cluster.Verdict
import QuorumStore.Proofs.Session.Guards

/-!
# Counting Operations

What an operation adds to the counts, told by what its caller sees.

A session counts an operation where it goes about it: the operation itself
behind the first guard, a time-out when its calls are abandoned, a conflict
when the survivors are resolved. Its caller sees something else, an answer and
when it came. `tallied` says what is to be counted for an answer that came after
so long, and `counters_perform` that this is what is counted.

The two agree but for one thing. An operation that is out of reach before its
deadline passes on the last failure with a cause. If every failure so far was a
call that broke off there is none, and the caller is told of a time-out that
has not come and is not counted (`Hopeless`). So a time-out is to be counted
only if it took as long as it may.

## Main definitions

* `Hopeless`: Replies that are too few in time, and leave no cause.
* `Operation.keyed`: An operation on a key.
* `Kind.counted`, `Counters.operations`: The counts of an operation by its kind.
* `Session.limit`: How long the calls of an operation may take.
* `Session.tallied`: What is to be counted for an answer.
* `Session.GivesUp`: An operation is out of reach for no cause.

## Theorems

* `Cluster.fanOut_tooFew`: The two ways to have too few replies.
* `Cluster.exists_broken_of_hopeless`: What it takes to leave no cause.
* `Session.counters_perform`: Operations are counted by their answers.
* `Session.perform_timeout`: Who is told of a time-out, and when.
* `Session.perform_conflict`: Who is told of a conflict.
-/

namespace QuorumStore

section Calls

variable {α : Type}

/-- So many calls fail before the deadline that the rest cannot make up the
    number, and by then no failure has a cause. -/
def Hopeless (total needed deadline : Nat) (cs : List (Completion α)) : Prop :=
  ∃ P, Decisive total needed cs P ∧ lastDue P < deadline ∧
    (P.filterMap Completion.accepted?).length < needed ∧ P.filterMap Completion.failure? = []

namespace Cluster

variable {c : Cluster} {plan : Endpoint → Plan} {replicas : ReplicaSet} {request : Request}
  {level : Level} {deadline : Nat} {accept : Response → Except CallError α}

/-- A reply that is not accepted and leaves no cause is that of a call that
    broke off. -/
theorem broken_of_failed {es : List Endpoint} {x : Completion α}
    (hx : x ∈ c.replies plan es request accept) (haccepted : x.accepted? = none)
    (hfailure : x.failure? = none) : (plan x.endpoint).fate = .broken := by
  rcases List.mem_map.mp hx with ⟨call, hcall, rfl⟩
  refine (mem_scheduled.mp hcall).2.2.trans (@fate_of_meet_broken c request call.endpoint _ ?_)
  -- Responses and errors are looked at, and come to something.
  cases hreply : (c.meet request call.endpoint call.fate).1 with
  | broken => rfl
  | error e => simp [hreply, Reply.judge, Completion.failure?] at hfailure
  | response r =>
    cases hr : accept r with
    | ok a => simp [hreply, Reply.judge, Completion.accepted?, hr] at haccepted
    | error e => simp [hreply, Reply.judge, Completion.failure?, hr] at hfailure

/-- What replies come to that decide an operation without being enough. -/
theorem result_recordAll {P : List (Completion α)} {t : Nat} :
    (⟨.unreachable, ({} : Tally α).recordAll P, t⟩ : Outcome α).result =
      .error (match (P.filterMap Completion.failure?).getLast? with
        | some (e, cause) => .failure e cause
        | none => .tooFew (P.filterMap Completion.accepted?).length) := by
  rw [Outcome.result]
  simp only [Tally.lastFailure_recordAll, Tally.accepted_recordAll, Option.or_none,
    List.nil_append]
  cases (P.filterMap Completion.failure?).getLast? <;> rfl

section Decided

variable (hreplicas : 0 < replicas.size)
include hreplicas

/-- Replies that decide in time are what the operation ends with. -/
theorem fanOut_decided {P : List (Completion α)}
    (hP : Decisive replicas.size (level.required replicas.size)
      (c.replies plan replicas.endpoints request accept) P) (hlast : lastDue P < deadline) :
    (c.fanOut plan replicas request (level.required replicas.size) deadline accept).1 =
      ⟨if level.required replicas.size ≤ (P.filterMap Completion.accepted?).length
        then .satisfied else .unreachable, ({} : Tally α).recordAll P, lastDue P⟩ := by
  -- The last of them comes in time, so all of them do.
  have hsorted : P.Pairwise fun a b => a.due ≤ b.due := replies_sorted.sublist hP.front.sublist
  exact fanOut_of_decisive (level.required_le hreplicas) hP fun x hx =>
    Nat.lt_of_le_of_lt (le_lastDue hsorted hx) hlast

/-- They are too few if they are no success and no failure to pass on. -/
theorem fanOut_decided_tooFew_iff {P : List (Completion α)}
    (hP : Decisive replicas.size (level.required replicas.size)
      (c.replies plan replicas.endpoints request accept) P) (hlast : lastDue P < deadline) :
    (∃ got, (c.fanOut plan replicas request (level.required replicas.size) deadline
      accept).1.result = .error (.tooFew got)) ↔
      (P.filterMap Completion.accepted?).length < level.required replicas.size ∧
        P.filterMap Completion.failure? = [] := by
  rw [fanOut_decided hreplicas hP hlast]
  by_cases henough : level.required replicas.size ≤ (P.filterMap Completion.accepted?).length
  · rw [if_pos henough]
    simp [Outcome.result, Nat.not_lt_of_le henough]
  · -- The last failure with a cause is passed on, if there is one.
    rw [if_neg henough, result_recordAll, ← List.getLast?_eq_none_iff]
    cases hcause : (P.filterMap Completion.failure?).getLast? with
    | none => simp [Nat.lt_of_not_le henough]
    | some p => simp

/-- Of the operations with too few replies, those time out that end by their
    deadline. Those that end before it are out of reach for no cause. -/
theorem fanOut_tooFew :
    let o := (c.fanOut plan replicas request (level.required replicas.size) deadline accept).1
    o.elapsed ≤ deadline ∧
    (o.ending = .timedOut ↔
      (∃ got, o.result = .error (.tooFew got)) ∧ o.elapsed = deadline) ∧
    (Hopeless replicas.size (level.required replicas.size) deadline
        (c.replies plan replicas.endpoints request accept) ↔
      (∃ got, o.result = .error (.tooFew got)) ∧ o.elapsed < deadline) := by
  intro o
  by_cases h : ∃ P, Decisive replicas.size (level.required replicas.size)
      (c.replies plan replicas.endpoints request accept) P ∧ lastDue P < deadline
  · rcases h with ⟨P, hP, hlast⟩
    have hrun : o = _ := fanOut_decided hreplicas hP hlast
    have helapsed : o.elapsed < deadline := by
      rw [hrun]
      exact hlast
    refine ⟨Nat.le_of_lt helapsed, ⟨fun hending => ?_, fun h => ?_⟩, ?_, ?_⟩
    · -- Only a deadline that passes makes a time-out.
      rw [hrun] at hending
      simp only at hending
      split at hending <;> cases hending
    · exact absurd h.2 (Nat.ne_of_lt helapsed)
    · rintro ⟨Q, hQ, hlastQ, hfew, hnone⟩
      exact ⟨(fanOut_decided_tooFew_iff hreplicas hQ hlastQ).mpr ⟨hfew, hnone⟩, helapsed⟩
    · rintro ⟨hresult, -⟩
      rcases (fanOut_decided_tooFew_iff hreplicas hP hlast).mp hresult with ⟨hfew, hnone⟩
      exact ⟨P, hP, hlast, hfew, hnone⟩
  · -- Nothing decides it in time.
    have hrun : o = _ := fanOut_of_undecided (level.required_pos hreplicas)
      (level.required_le hreplicas) fun P hP => Nat.le_of_not_lt fun hlast => h ⟨P, hP, hlast⟩
    rw [hrun]
    refine ⟨Nat.le_refl _, ⟨fun _ => ⟨⟨_, rfl⟩, rfl⟩, fun _ => rfl⟩, ?_, ?_⟩
    · rintro ⟨P, hP, hlast, -⟩
      exact absurd ⟨P, hP, hlast⟩ h
    · rintro ⟨-, helapsed⟩
      exact absurd helapsed (Nat.lt_irrefl _)

end Decided

/-- Where an operation is out of reach for no cause a call broke off. -/
theorem exists_broken_of_hopeless {needed : Nat}
    (h : Hopeless replicas.size needed deadline
      (c.replies plan replicas.endpoints request accept)) : ∃ e, (plan e).fate = .broken := by
  rcases h with ⟨P, hP, -, hfew, hnone⟩
  -- It is decided by failures, and one of them is enough.
  have hfailed : 0 < P.countP Completion.failed := by
    have hdecides := hP.decides
    unfold Decides at hdecides
    omega
  rcases List.countP_pos_iff.mp hfailed with ⟨x, hx, hxfailed⟩
  rw [Completion.failed, Option.isNone_iff_eq_none] at hxfailed
  exact ⟨x.endpoint, broken_of_failed (hP.front.subset hx) hxfailed
    (List.filterMap_eq_nil_iff.mp hnone x hx)⟩

end Cluster

end Calls

/-- The operation is about a key, and has a deadline of its own. -/
def Operation.keyed : Operation → Bool
  | .get _ | .put _ _ | .delete _ => true
  | .connect | .stat => false

/-- The counts of an operation of a kind that is gone about. -/
def Kind.counted : Kind → Counters
  | .ping => {}
  | .get => { gets := 1 }
  | .put => { puts := 1 }
  | .delete => { deletes := 1 }
  | .stat => { stats := 1 }

/-- How many operations of a kind are counted. Greetings are not. -/
def Counters.operations (c : Counters) : Kind → Nat
  | .ping => 0
  | .get => c.gets
  | .put => c.puts
  | .delete => c.deletes
  | .stat => c.stats

theorem Counters.operations_add (a b : Counters) (kind : Kind) :
    (a.add b).operations kind = a.operations kind + b.operations kind := by
  cases kind <;> rfl

namespace Session

/-- How long the calls of an operation may take. -/
def limit (s : Session) : Operation → Nat
  | .get _ => s.settings.readTimeout
  | .put _ _ | .delete _ => s.settings.writeTimeout
  | .connect | .stat => s.settings.statTimeout

/-- What is to be counted for an operation of a kind that came to this after so
    long: nothing if there was no connection, else the operation and, besides,
    a conflict and a time-out that took as long as it may. -/
def tallied {α : Type} (kind : Kind) (limit elapsed : Nat) : Except OpError α → Counters
  | .error .notConnected => {}
  | .error (.conflict _ _) => kind.counted.add { conflicts := 1 }
  | .error (.timeout _ _ _) => kind.counted.add { timeouts := if elapsed = limit then 1 else 0 }
  | _ => kind.counted

variable {s : Session} {c : Cluster} {plan : Endpoint → Plan} {ticket : Ticket}
  {op : Operation} {key : String}

theorem tallied_map {α β : Type} (f : α → β) (kind : Kind) (limit elapsed : Nat)
    (r : Except OpError α) :
    tallied kind limit elapsed (r.map f) = tallied kind limit elapsed r := by
  rcases r with e | a
  · cases e <;> rfl
  · rfl

section Tallied

variable {α : Type} {kind : Kind} {limit elapsed : Nat} {r : Except OpError α}

theorem operations_tallied (k : Kind) : (tallied kind limit elapsed r).operations k =
    match r with
    | .error .notConnected => 0
    | _ => kind.counted.operations k := by
  rcases r with e | a
  · cases e <;> cases k <;> rfl
  · rfl

theorem conflicts_tallied : (tallied kind limit elapsed r).conflicts =
    match r with
    | .error (.conflict _ _) => 1
    | _ => 0 := by
  rcases r with e | a
  · cases e <;> cases kind <;> rfl
  · cases kind <;> rfl

theorem timeouts_tallied : (tallied kind limit elapsed r).timeouts =
    match r with
    | .error (.timeout _ _ _) => if elapsed = limit then 1 else 0
    | _ => 0 := by
  rcases r with e | a
  · cases e <;> cases kind <;> simp [tallied, Counters.add, Kind.counted]
  · cases kind <;> rfl

end Tallied

theorem tallied_refusal {α : Type} (s : Session) (kind : Kind) (limit elapsed : Nat) :
    tallied kind limit elapsed (.error s.refusal : Except OpError α) =
      if s.connected then kind.counted else {} := by
  unfold refusal
  cases s.connected <;> rfl

/-- Calls that fall short are counted by what they come to. -/
theorem tallied_short {α β : Type} {replicas : ReplicaSet} {level : Level} {request : Request}
    {deadline : Nat} {accept : Response → Except CallError α} (hreplicas : 0 < replicas.size)
    (kind : Kind) {short : Shortfall} :
    let o := (c.fanOut plan replicas request (level.required replicas.size) deadline accept).1
    o.result = .error short →
    tallied kind deadline o.elapsed (.error (shortfallError kind
      (level.required replicas.size) short) : Except OpError β) =
        kind.counted.add (endingCounters o.ending) := by
  intro o hresult
  have htimedOut : o.ending = .timedOut ↔ _ := (Cluster.fanOut_tooFew hreplicas).2.1
  cases short with
  | failure e cause =>
    cases hending : o.ending with
    | timedOut =>
      -- A deadline that passes leaves no failure to pass on.
      rcases htimedOut.mp hending with ⟨⟨got, hgot⟩, -⟩
      rw [hresult] at hgot
      cases hgot
    | _ => rfl
  | tooFew got =>
    rw [shortfallError, tallied]
    by_cases helapsed : o.elapsed = deadline
    · rw [if_pos helapsed, htimedOut.mpr ⟨⟨got, hresult⟩, helapsed⟩]
      rfl
    · rw [if_neg helapsed]
      cases hending : o.ending with
      | timedOut => exact absurd (htimedOut.mp hending).2 helapsed
      | _ => rfl

/-- A read that has its replies is in conflict or comes to nothing else that
    counts. -/
theorem tallied_concludeGet (policy : Policy) (n : Nat) (survivors : List Version)
    (limit elapsed : Nat) :
    tallied .get limit elapsed (concludeGet policy key n survivors) =
      Kind.get.counted.add (conflictCounters (concludeGet policy key n survivors)) := by
  unfold concludeGet
  cases Version.resolve policy survivors with
  | missing => rfl
  | conflict siblings => rfl
  | winner v => cases hv : v.tombstone <;> simp only [hv] <;> rfl

theorem size_pos_of_sends (h : s.sends key = true) : 0 < (s.placement.replicasFor key).size := by
  have hsome := (sends_iff.mp h).2
  rw [ReplicaSet.isEmpty, List.isEmpty_eq_false_iff] at hsome
  exact List.length_pos_iff.mpr hsome

theorem counters_get : (s.get c plan key).counters =
    tallied .get s.settings.readTimeout (s.get c plan key).elapsed (s.get c plan key).result := by
  cases hsends : s.sends key with
  | false =>
    rw [get_of_not_sends c plan hsends]
    exact (tallied_refusal s .get _ _).symm
  | true =>
    rw [get_of_sends hsends]
    cases hr : (s.readCalls c plan key).1.result with
    | error short => exact (tallied_short (size_pos_of_sends hsends) .get hr).symm
    | ok replies => exact (tallied_concludeGet _ _ _ _ _).symm

theorem counters_write {value : Option String} : (s.write c plan ticket key value).counters =
    tallied (if value.isSome then .put else .delete) s.settings.writeTimeout
      (s.write c plan ticket key value).elapsed (s.write c plan ticket key value).result := by
  -- The kind of the write decides which of the two counts it is.
  have hcounted : (if value.isSome = true then ({ puts := 1 } : Counters) else { deletes := 1 }) =
      (if value.isSome = true then Kind.put else Kind.delete).counted := by
    cases value <;> rfl
  cases hsends : s.sends key with
  | false =>
    rw [write_of_not_sends c plan ticket value hsends, hcounted]
    exact (tallied_refusal s _ _ _).symm
  | true =>
    rw [write_of_sends hsends, hcounted]
    cases hr : (s.writeCalls c plan ticket key value).1.result with
    | error short => exact (tallied_short (size_pos_of_sends hsends) _ hr).symm
    | ok replies =>
      -- Whoever is satisfied has not timed out.
      simp only [(Outcome.result_eq_ok_iff.mp hr).1]
      rfl

/-- A greeting that fails passes on an error of a call, or has none. -/
theorem connect_outcome {e : OpError} (h : (s.connect c plan).result = .error e) :
    e = .noReplicas ∨ ∃ endpoint cause, e = .transport endpoint cause := by
  cases hempty : s.placement.everywhere.isEmpty with
  | true =>
    rw [connect_refused c plan hempty] at h
    exact .inl (Except.error.inj h).symm
  | false => exact (connect_error hempty h).symm.imp And.left id

/-- A status report fails only for want of a connection. -/
theorem stat_outcome {e : OpError} (h : (s.stat c plan).result = .error e) :
    e = .notConnected := by
  unfold stat at h
  cases hconn : s.connected <;> rw [hconn] at h
  · exact (Except.error.inj h).symm
  · cases h

/-- A greeting is not counted, and comes to nothing that is. -/
theorem counters_connect : (s.connect c plan).counters =
    tallied .ping s.settings.statTimeout (s.connect c plan).elapsed (s.connect c plan).result := by
  have hnone : (s.connect c plan).counters = {} := by
    cases hempty : s.placement.everywhere.isEmpty with
    | true =>
      rw [connect_refused c plan hempty]
      rfl
    | false =>
      simp only [connect, hempty, Bool.false_eq_true, if_false]
      split <;> rfl
  rw [hnone]
  cases hresult : (s.connect c plan).result with
  | ok n => rfl
  | error e => rcases connect_outcome hresult with rfl | ⟨endpoint, cause, rfl⟩ <;> rfl

theorem counters_stat : (s.stat c plan).counters =
    tallied .stat s.settings.statTimeout (s.stat c plan).elapsed (s.stat c plan).result := by
  unfold stat
  cases s.connected <;> rfl

/-- Every operation is counted by what its caller sees of it: the answer, and
    how long it took. -/
theorem counters_perform (s : Session) (c : Cluster) (plan : Endpoint → Plan) (ticket : Ticket)
    (op : Operation) : (s.perform c plan ticket op).counters =
      tallied op.kind (s.limit op) (s.perform c plan ticket op).elapsed
        (s.perform c plan ticket op).result := by
  -- The form of the answer does not matter to the counts.
  cases op with
  | connect => exact counters_connect.trans (tallied_map _ _ _ _ _).symm
  | get key => exact counters_get.trans (tallied_map _ _ _ _ _).symm
  | put key value => exact counters_write.trans (tallied_map _ _ _ _ _).symm
  | delete key => exact counters_write.trans (tallied_map _ _ _ _ _).symm
  | stat => exact counters_stat.trans (tallied_map _ _ _ _ _).symm

/-- A write is out of reach before its deadline, for no cause. -/
def GivesUpWrite (s : Session) (c : Cluster) (plan : Endpoint → Plan) (ticket : Ticket)
    (key : String) (value : Option String) : Prop :=
  s.sends key = true ∧
  Hopeless (s.placement.replicasFor key).size
    (s.settings.writeLevel.required (s.placement.replicasFor key).size) s.settings.writeTimeout
    (c.replies plan (s.placement.replicasFor key).endpoints (s.writeRequest ticket key value)
      (acceptAck (if value.isSome then .put else .delete)))

/-- An operation on a key is out of reach before its deadline, for no cause. -/
def GivesUp (s : Session) (c : Cluster) (plan : Endpoint → Plan) (ticket : Ticket) :
    Operation → Prop
  | .get key =>
    s.sends key = true ∧
    Hopeless (s.placement.replicasFor key).size
      (s.settings.readLevel.required (s.placement.replicasFor key).size) s.settings.readTimeout
      (c.replies plan (s.placement.replicasFor key).endpoints (.get key) acceptValue)
  | .put key value => s.GivesUpWrite c plan ticket key (some value)
  | .delete key => s.GivesUpWrite c plan ticket key none
  | .connect | .stat => False

theorem refusal_ne_timeout (s : Session) (kind : Kind) (needed got : Nat) :
    s.refusal ≠ .timeout kind needed got := by
  unfold refusal
  cases s.connected <;> simp

/-- A read times out if it has too few replies. -/
theorem get_timeout_iff : (∃ kind needed got, (s.get c plan key).result =
      .error (.timeout kind needed got)) ↔
    s.sends key = true ∧ ∃ got, (s.readCalls c plan key).1.result = .error (.tooFew got) := by
  cases hsends : s.sends key with
  | false => simp [get_of_not_sends c plan hsends, refuse, refusal_ne_timeout]
  | true =>
    rw [get_of_sends hsends]
    cases hr : (s.readCalls c plan key).1.result with
    | error short => cases short <;> simp [shortfallError]
    | ok replies =>
      simp only [concludeGet]
      cases Version.resolve s.settings.policy (Version.reconcile (versions replies)) with
      | winner v => cases hv : v.tombstone <;> simp [hv]
      | _ => simp

/-- So does a write. -/
theorem write_timeout_iff {value : Option String} :
    (∃ kind needed got, (s.write c plan ticket key value).result =
      .error (.timeout kind needed got)) ↔
    s.sends key = true ∧
      ∃ got, (s.writeCalls c plan ticket key value).1.result = .error (.tooFew got) := by
  cases hsends : s.sends key with
  | false => simp [write_of_not_sends c plan ticket value hsends, refuse, refusal_ne_timeout]
  | true =>
    rw [write_of_sends hsends]
    cases hr : (s.writeCalls c plan ticket key value).1.result with
    | error short => cases short <;> simp [shortfallError]
    | ok replies => simp

/-- A read that times out has taken as long as it may, or has given up. -/
theorem get_givesUp_iff : (s.get c plan key).elapsed ≤ s.settings.readTimeout ∧
    (s.GivesUp c plan ticket (.get key) ↔
      (∃ kind needed got, (s.get c plan key).result = .error (.timeout kind needed got)) ∧
        (s.get c plan key).elapsed < s.settings.readTimeout) := by
  rw [get_timeout_iff, GivesUp]
  cases hsends : s.sends key with
  | false => simp [get_of_not_sends c plan hsends, refuse]
  | true =>
    have helapsed : (s.get c plan key).elapsed = (s.readCalls c plan key).1.elapsed := by
      rw [get_of_sends hsends]
      cases (s.readCalls c plan key).1.result <;> rfl
    rcases Cluster.fanOut_tooFew (size_pos_of_sends hsends) with ⟨hle, -, hhopeless⟩
    rw [helapsed]
    simp only [true_and]
    exact ⟨hle, hhopeless⟩

/-- So has a write. -/
theorem write_givesUp_iff {value : Option String} :
    (s.write c plan ticket key value).elapsed ≤ s.settings.writeTimeout ∧
    (s.GivesUpWrite c plan ticket key value ↔
      (∃ kind needed got, (s.write c plan ticket key value).result =
        .error (.timeout kind needed got)) ∧
        (s.write c plan ticket key value).elapsed < s.settings.writeTimeout) := by
  rw [write_timeout_iff, GivesUpWrite]
  cases hsends : s.sends key with
  | false => simp [write_of_not_sends c plan ticket value hsends, refuse]
  | true =>
    rw [write_of_sends hsends]
    rcases Cluster.fanOut_tooFew (size_pos_of_sends hsends) with ⟨hle, -, hhopeless⟩
    simp only [true_and]
    exact ⟨hle, hhopeless⟩

/-- What times out is an operation on a key, and it has taken as long as it may
    or has given up. -/
theorem perform_timeout (s : Session) (c : Cluster) (plan : Endpoint → Plan) (ticket : Ticket)
    (op : Operation) :
    ((∃ kind needed got, (s.perform c plan ticket op).result =
        .error (.timeout kind needed got)) →
      op.keyed = true ∧ (s.perform c plan ticket op).elapsed ≤ s.limit op) ∧
    (s.GivesUp c plan ticket op ↔
      (∃ kind needed got, (s.perform c plan ticket op).result =
        .error (.timeout kind needed got)) ∧
        (s.perform c plan ticket op).elapsed < s.limit op) := by
  cases op with
  | connect =>
    have hnone : ¬ ∃ kind needed got, (s.perform c plan ticket .connect).result =
        .error (.timeout kind needed got) := by
      rintro ⟨kind, needed, got, h⟩
      rcases connect_outcome (Effect.result_map_eq_error_iff.mp h)
        with he | ⟨endpoint, cause, he⟩ <;> cases he
    exact ⟨fun h => absurd h hnone, False.elim, fun h => absurd h.1 hnone⟩
  | stat =>
    have hnone : ¬ ∃ kind needed got, (s.perform c plan ticket .stat).result =
        .error (.timeout kind needed got) := by
      rintro ⟨kind, needed, got, h⟩
      cases stat_outcome (Effect.result_map_eq_error_iff.mp h)
    exact ⟨fun h => absurd h hnone, False.elim, fun h => absurd h.1 hnone⟩
  | get key =>
    simp only [perform, Effect.result_map_eq_error_iff]
    have hget := @get_givesUp_iff s c plan ticket key
    exact ⟨fun _ => ⟨rfl, hget.1⟩, hget.2⟩
  | put key value =>
    simp only [perform, Effect.result_map_eq_error_iff]
    exact ⟨fun _ => ⟨rfl, write_givesUp_iff.1⟩, write_givesUp_iff.2⟩
  | delete key =>
    simp only [perform, Effect.result_map_eq_error_iff]
    exact ⟨fun _ => ⟨rfl, write_givesUp_iff.1⟩, write_givesUp_iff.2⟩

/-- Only a read meets a conflict. -/
theorem perform_conflict {k : String} {siblings : List Version}
    (h : (s.perform c plan ticket op).result = .error (.conflict k siblings)) :
    op.kind = .get := by
  -- A write is refused, or it succeeds, or its calls fall short.
  have hwrite : ∀ (key : String) (value : Option String), op.writes? key = some value → False := by
    intro key value hwrites
    cases hsends : s.sends key with
    | false =>
      rw [perform_write hwrites, write_of_not_sends c plan ticket value hsends] at h
      have hrefusal := s.isRefusal_refusal
      rw [Except.error.inj h] at hrefusal
      cases hrefusal
    | true =>
      rcases perform_write_outcome c plan ticket hsends hwrites with ⟨n, hok⟩ | ⟨e, he, hshort⟩
      · rw [h] at hok
        cases hok
      · rw [h] at he
        rw [← Except.error.inj he] at hshort
        cases hshort
  cases op with
  | get key => rfl
  | put key value => exact (hwrite key (some value) (if_pos rfl)).elim
  | delete key => exact (hwrite key none (if_pos rfl)).elim
  | connect =>
    rcases connect_outcome (Effect.result_map_eq_error_iff.mp h)
      with he | ⟨endpoint, cause, he⟩ <;> cases he
  | stat => cases stat_outcome (Effect.result_map_eq_error_iff.mp h)

/-- An operation that gives up has a call that breaks off. -/
theorem GivesUp.exists_broken (h : s.GivesUp c plan ticket op) :
    ∃ e, (plan e).fate = .broken := by
  cases op with
  | connect => exact h.elim
  | stat => exact h.elim
  | get key => exact Cluster.exists_broken_of_hopeless h.2
  | put key value => exact Cluster.exists_broken_of_hopeless h.2
  | delete key => exact Cluster.exists_broken_of_hopeless h.2

end Session

end QuorumStore
