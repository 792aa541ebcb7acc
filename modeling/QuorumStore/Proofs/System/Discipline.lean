import QuorumStore.Proofs.Session.Guards
import QuorumStore.Proofs.System.Run
import QuorumStore.Proofs.Version.HighestNode

/-!
# Clock Discipline

What becomes of a session's histories in the course of a run, whatever the
replicas reply.

A session has one history for each key, and every operation may touch it on the
way to one of several exits. The discipline is that there are two exits which
do: a read takes in the replies it has accepted, all of them and at once, when
it has enough; a write advances the session's own count by one when it has
passed the guards, before anything is sent. There is no third. An operation
that is turned down, a read that falls short, a greeting, a request for status
and a change of levels leave every history as it was.

Nothing here asks that replies be honest. A reply may carry any vector, and the
session believes it.

The discipline is what puts a session's writes in order. Whatever the session
has met of a key — versions it has sent out, found, been shown as siblings or
dropped in favour of others — is in its history from then on, and its next
write goes out one count beyond (`Moment.Meets.le_history`).

## Main definitions

* `Moment.Refused`, `Moment.FallsShort`: The two ways to come to nothing.
* `Moment.Silent`: A move that calls nobody.
* `Moment.Meets`: A session meets a vector of a key.
* `Joined`: A session has greeted its replicas before.
* `largestCount`: The largest count of a name.
* `Disciplined`: A run in which histories are kept as described.

## Theorems

* `Moment.get_cases`, `Moment.write_cases`: The exits of an operation.
* `Moment.refused_iff`: Which reads and writes are turned down.
* `Moment.quiet`: An operation without effect on any history.
* `Moment.Refused.silent`: Who is refused has called nobody.
* `Moment.Meets.stamp_or_reply`: A session meets what it sends and what it is
  told.
* `Moment.Meets.le_history`: What a session has met is in its history.
* `System.connected_iff_joined`: Who has connected.
* `System.disciplined`: Every run is disciplined.
-/

namespace QuorumStore

/-- An operation reads or writes a key. -/
def Operation.Concerns (op : Operation) (key : String) : Prop :=
  op = .get key ∨ (op.writes? key).isSome = true

/-- What a session turns down of a key is what it does not send. -/
theorem Session.turnsDown_of_concerns {s : Session} {op : Operation} {key : String}
    (h : op.Concerns key) : op ≠ .connect ∧ s.turnsDown op = !s.sends key := by
  rcases h with rfl | hwrites
  · exact ⟨by simp, rfl⟩
  · rcases Option.isSome_iff_exists.mp hwrites with ⟨value, hvalue⟩
    cases op with
    | put k v =>
      by_cases hk : k = key
      · exact ⟨by simp, by rw [turnsDown, hk]⟩
      · rw [Operation.writes?, if_neg hk] at hvalue
        cases hvalue
    | delete k =>
      by_cases hk : k = key
      · exact ⟨by simp, by rw [turnsDown, hk]⟩
      · rw [Operation.writes?, if_neg hk] at hvalue
        cases hvalue
    | connect => cases hvalue
    | get k => cases hvalue
    | stat => cases hvalue

/-- The largest count of a name in a vector and in those of some versions. -/
def largestCount (v : VersionVector) (vs : List Version) (node : String) : Nat :=
  vs.foldl (fun x u => max x (u.vector.counter node)) (v.counter node)

theorem le_largestCount_iff (v : VersionVector) (vs : List Version) (node : String) (x : Nat) :
    x ≤ largestCount v vs node ↔ x ≤ v.counter node ∨ ∃ u ∈ vs, x ≤ u.vector.counter node := by
  unfold largestCount
  generalize v.counter node = c
  induction vs generalizing c with
  | nil => simp
  | cons u vs ih => rw [List.foldl_cons, ih, le_max_iff, List.exists_mem_cons_iff, or_assoc]

/-- A value that a read finds goes by the vector of a survivor. -/
theorem Session.concludeGet_found {policy : Policy} {key : String} {n : Nat}
    {survivors : List Version} {f : Found}
    (h : concludeGet policy key n survivors = .ok f) : ∃ v ∈ survivors, v.vector = f.vector := by
  have hwinner : ∀ v, Version.resolve policy survivors = .winner v → v.vector = f.vector := by
    intro v hv
    rw [concludeGet, hv] at h
    cases htombstone : v.tombstone <;> simp only [htombstone] at h <;> cases h
    rfl
  rcases survivors with _ | ⟨v, _ | ⟨w, vs⟩⟩
  · cases h
  · exact ⟨v, List.mem_cons_self, hwinner v rfl⟩
  · cases policy with
    | surface => cases h
    | highestNode =>
      rcases Version.resolve_eq_winner (List.cons_ne_nil v (w :: vs)) with ⟨b, hb, hhighest⟩
      exact ⟨b, hhighest.1, hwinner b hb⟩

namespace Moment

variable {m : Moment} {key : String}

/-- The session turns the move down. -/
def Refused (m : Moment) : Prop := ∃ e, m.result? = some (.error e) ∧ e.isRefusal = true

/-- The calls of the move fall short. -/
def FallsShort (m : Moment) : Prop := ∃ e, m.result? = some (.error e) ∧ e.isShortfall = true

/-- The move calls no replica: nothing is sent, the replicas have handled
    nothing, and all would be the same with any other plan. -/
structure Silent (m : Moment) : Prop where
  sends : ∀ s, m.session? = some s → s.outgoing? m.move.ticket m.move.operation = none
  cluster : m.next.cluster = m.system.cluster
  plan : ∀ plan, m.system.effect? { m.move with plan := plan } = m.system.effect? m.move

/-- At a move its session meets a vector of a key. -/
inductive Meets (m : Moment) (key : String) : VersionVector → Prop where
  /-- It sends out a version. -/
  | stamp {v : Version} (h : m.stamp? key = some v) : Meets m key v.vector
  /-- It finds a value. -/
  | found {f : Found} (hop : m.move.operation = .get key)
    (h : m.result? = some (.ok (.found f))) : Meets m key f.vector
  /-- It is shown siblings. -/
  | sibling {k : String} {siblings : List Version} {u : Version}
    (hop : m.move.operation = .get key) (h : m.result? = some (.error (.conflict k siblings)))
    (hu : u ∈ siblings) : Meets m key u.vector
  /-- It accepts a reply, which the answer may not mention. -/
  | reply {replies : List (Endpoint × Option Version)} {u : Version}
    (h : m.read? key = some replies) (hu : u ∈ versions replies) : Meets m key u.vector

/-- The history of a read key is the counter-wise maximum of what it was and
    of all replies. -/
theorem counter_largest {replies : List (Endpoint × Option Version)}
    (h : m.read? key = some replies) (node : String) :
    (m.next.history m.move.who key).counter node =
      largestCount (m.system.history m.move.who key) (versions replies) node := by
  refine eq_of_forall_le_iff fun x => ?_
  rw [(step_read h).1, le_largestCount_iff]

/-- A read with an answer has come to it from the survivors of its replies. -/
theorem conclusion_of_result {r : Except OpError Found} (hconcludes : m.Concludes key)
    (h : m.result? = some (r.map .found)) :
    ∃ policy replies, m.read? key = some replies ∧
      Session.concludeGet policy key replies.length (Version.reconcile (versions replies)) = r := by
  rcases concludes_iff.mp hconcludes with ⟨replies, hread⟩
  rcases result?_of_read? hread with ⟨s, -, hresult⟩
  refine ⟨s.settings.policy, replies, hread, ?_⟩
  rw [h, Option.some.injEq] at hresult
  generalize Session.concludeGet s.settings.policy key replies.length
    (Version.reconcile (versions replies)) = r' at hresult ⊢
  cases r <;> cases r' <;> simp_all [Except.map]

/-- What a session meets it has sent out or accepted as a reply: a vector that
    is shown is that of a reply. -/
theorem Meets.stamp_or_reply {vec : VersionVector} (h : m.Meets key vec) :
    (∃ v, m.stamp? key = some v ∧ v.vector = vec) ∨
    ∃ replies u, m.read? key = some replies ∧ u ∈ versions replies ∧ u.vector = vec := by
  cases h with
  | stamp hstamp => exact .inl ⟨_, hstamp, rfl⟩
  | reply hread hu => exact .inr ⟨_, _, hread, hu, rfl⟩
  | @found f hop hfound =>
    rcases @conclusion_of_result _ _ (.ok f) ⟨hop, .inl ⟨f, hfound⟩⟩ hfound
      with ⟨policy, replies, hread, hget⟩
    rcases Session.concludeGet_found hget with ⟨v, hv, hvector⟩
    exact .inr ⟨replies, v, hread, (Version.frontier_reconcile _).sound v hv, hvector⟩
  | @sibling k siblings u hop hconflict hu =>
    rcases @conclusion_of_result _ _ (.error (.conflict k siblings))
      ⟨hop, .inr (.inr ⟨k, siblings, hconflict⟩)⟩ hconflict with ⟨policy, replies, hread, hget⟩
    rw [Session.concludeGet_conflict hget] at hu
    exact .inr ⟨replies, u, hread, (Version.frontier_reconcile _).sound u hu, rfl⟩

/-- What a session meets is in its history from then on. -/
theorem Meets.le_history {vec : VersionVector} (h : m.Meets key vec) :
    vec ≤ m.next.history m.move.who key := by
  rcases h.stamp_or_reply with ⟨v, hstamp, rfl⟩ | ⟨replies, u, hread, hu, rfl⟩
  · rw [(step_stamp hstamp).2.1, if_pos rfl]
  · -- Replies are taken in, every one of them.
    exact fun node => ((step_read hread).1 node _).mpr (.inr ⟨u, hu, Nat.le_refl _⟩)

/-- A move that neither writes nor reads anything leaves all histories. -/
theorem quiet (hstamp : ∀ key, m.stamp? key = none) (hread : ∀ key, m.read? key = none)
    (who : Nat) (key : String) : m.next.history who key = m.system.history who key :=
  (step_other (hstamp key) (hread key)).1 who

theorem stamp?_of_writes (h : m.move.operation.writes? key = none) : m.stamp? key = none := by
  by_contra hstamp
  rcases Option.ne_none_iff_exists'.mp hstamp with ⟨v, hv⟩
  rcases Option.bind_eq_some_iff.mp hv with ⟨s, -, hs⟩
  rcases Session.stamp?_eq_some_iff.mp hs with ⟨-, value, hwrites, -⟩
  rw [h] at hwrites
  cases hwrites

theorem read?_of_not_get (h : m.move.operation ≠ .get key) : m.read? key = none := by
  by_contra hread
  rcases Option.ne_none_iff_exists'.mp hread with ⟨replies, hreplies⟩
  exact h (concludes_iff.mpr ⟨replies, hreplies⟩).1

/-- A read or a write of a key is refused exactly if the session does not send
    anything about it. -/
theorem refused_iff {s : Session} (hs : m.session? = some s)
    (hconcerns : m.move.operation.Concerns key) : m.Refused ↔ s.sends key = false := by
  rcases @Session.turnsDown_of_concerns s _ _ hconcerns with ⟨hop, hdown⟩
  constructor
  · rintro ⟨e, he, hrefusal⟩
    rw [result?_eq hs, Option.some.injEq] at he
    have h := Session.turnsDown_of_refusal (fun h => absurd h hop) he hrefusal
    rw [hdown, Bool.not_eq_true'] at h
    exact h
  · intro hsends
    rw [hsends] at hdown
    rcases Session.perform_of_turnsDown m.system.cluster hdown with ⟨counted, e, he, -, hrefuse⟩
    exact ⟨e, by rw [result?_eq hs, hrefuse]; rfl, he⟩

/-- Who is refused has not fallen short. -/
theorem Refused.not_fallsShort (h : m.Refused) : ¬ m.FallsShort := by
  rcases h with ⟨e, he, hrefusal⟩
  rintro ⟨e', he', hshort⟩
  rw [he, Option.some.injEq, Except.error.injEq] at he'
  rw [he', Session.not_isRefusal_of_isShortfall hshort] at hrefusal
  cases hrefusal

/-- A write that is sent out returns its vector or falls short. -/
theorem outcome_of_stamp? {v : Version} (h : m.stamp? key = some v) :
    (∃ n, m.result? = some (.ok (.written ⟨v.vector, n⟩))) ∨ m.FallsShort := by
  rcases Option.bind_eq_some_iff.mp h with ⟨s, hs, hsent⟩
  rcases Session.stamp?_eq_some_iff.mp hsent with ⟨hsends, value, hwrites, rfl⟩
  rw [Session.versionOf_vector]
  rcases Session.perform_write_outcome m.system.cluster m.move.plan m.move.ticket hsends hwrites
    with ⟨n, hok⟩ | ⟨e, herror, hshort⟩
  · exact .inl ⟨n, by rw [result?_eq hs, hok]⟩
  · exact .inr ⟨e, by rw [result?_eq hs, herror], hshort⟩

/-- Who is refused has sent out nothing. -/
theorem Refused.stamp? (h : m.Refused) (key : String) : m.stamp? key = none := by
  by_contra hsome
  rcases Option.ne_none_iff_exists'.mp hsome with ⟨v, hv⟩
  rcases outcome_of_stamp? hv with ⟨n, hok⟩ | hshort
  · rcases h with ⟨e, he, -⟩
    rw [he] at hok
    cases hok
  · exact h.not_fallsShort hshort

/-- An operation that comes to nothing takes in nothing. -/
theorem read?_of_nothing (h : m.Refused ∨ m.FallsShort) (key : String) : m.read? key = none := by
  have herror : ∃ e, m.result? = some (.error e) ∧
      (e.isRefusal = true ∨ e.isShortfall = true) := by
    rcases h with ⟨e, he, hkind⟩ | ⟨e, he, hkind⟩
    · exact ⟨e, he, .inl hkind⟩
    · exact ⟨e, he, .inr hkind⟩
  rcases herror with ⟨e, he, hkind⟩
  by_contra hread
  -- None of the answers of a read is such an error.
  rcases (concludes_iff.mpr (Option.ne_none_iff_exists'.mp hread)).2
    with ⟨f, h⟩ | ⟨k, h⟩ | ⟨k, siblings, h⟩ <;> rw [he] at h <;> cases h <;>
    rcases hkind with h | h <;> cases h

/-- A write that passes the guards advances its session's own count by one,
    whatever its calls come to, and goes out under just that history. -/
theorem write_cases {s : Session} (hs : m.session? = some s) {value : Option String}
    (hwrites : m.move.operation.writes? key = some value) :
    m.Refused ∨
    ∃ vector, m.stamp? key = some (Session.versionOf value vector) ∧
      m.next.history m.move.who key = vector ∧
      (∀ node, vector.counter node = (m.system.history m.move.who key).counter node +
        if node = s.settings.node then 1 else 0) ∧
      ((∃ n, m.result? = some (.ok (.written ⟨vector, n⟩))) ∨ m.FallsShort) := by
  cases hsends : s.sends key with
  | false =>
    refine .inl ⟨s.refusal, ?_, s.isRefusal_refusal⟩
    rw [result?_eq hs, Session.perform_write hwrites, Session.write_of_not_sends _ _ _ _ hsends]
    rfl
  | true =>
    have hsent : m.stamp? key =
        some (Session.versionOf value (s.nextVector m.move.ticket key)) := by
      rw [stamp?, hs, Option.bind_some]
      exact Session.stamp?_eq_some_iff.mpr ⟨hsends, value, hwrites, rfl⟩
    have houtcome := outcome_of_stamp? hsent
    have hhistory := (step_stamp hsent).2.1 m.move.who
    rw [Session.versionOf_vector] at houtcome hhistory
    refine .inr ⟨_, hsent, by rw [hhistory, if_pos rfl], fun node => ?_, houtcome⟩
    rw [Session.nextVector, System.history_of_session hs, VersionVector.counter_update]

/-- A read is turned down, falls short or concludes. -/
theorem get_cases {s : Session} (hs : m.session? = some s)
    (hop : m.move.operation = .get key) : m.Refused ∨ m.FallsShort ∨ m.Concludes key := by
  cases hread : m.read? key with
  | some replies => exact .inr (.inr (concludes_iff.mpr ⟨replies, hread⟩))
  | none =>
    rw [read?, hs, Option.bind_some, Session.read?, if_pos hop] at hread
    rcases (Session.get_of_not_gathered hread).2 with ⟨e, he, hfound, hconflict⟩
    have hresult : m.result? = some (.error e) := by
      rw [result?_eq hs, hop, Session.perform]
      exact congrArg some (Effect.result_map_eq_error_iff.mpr he)
    cases e with
    | notConnected => exact .inl ⟨_, hresult, rfl⟩
    | noReplicas => exact .inl ⟨_, hresult, rfl⟩
    | transport endpoint cause => exact .inr (.inl ⟨_, hresult, rfl⟩)
    | timeout operation needed got => exact .inr (.inl ⟨_, hresult, rfl⟩)
    | conflict k siblings => exact absurd rfl (hconflict k siblings)
    | notFound k => exact absurd rfl (hfound k)

/-- Who is refused has called nobody, unless it was a greeting of which a call
    broke off. -/
theorem Refused.silent (h : m.Refused)
    (hgreet : m.move.operation = .connect → ∀ e, (m.move.plan e).fate ≠ .broken) : m.Silent := by
  rcases h with ⟨e, he, hrefusal⟩
  rcases result?_eq_some_iff.mp he with ⟨s, hs, herror⟩
  have hdown := Session.turnsDown_of_refusal hgreet herror hrefusal
  rcases Session.perform_of_turnsDown m.system.cluster hdown with ⟨counted, e', -, -, hrefuse⟩
  constructor
  · intro t ht
    rw [hs, Option.some.injEq] at ht
    rw [← ht]
    exact Session.outgoing?_of_turnsDown _ hdown
  · rw [cluster_next hs, hrefuse]
    rfl
  · intro plan
    simp only [System.effect?, show m.system.sessions[m.move.who]? = some s from hs,
      Option.map_some, hrefuse]

/-- A history changes only for the session that moves, and for the key that
    it reads or writes. -/
theorem history_next_of_other {who : Nat}
    (h : who ≠ m.move.who ∨ ¬ m.move.operation.Concerns key) :
    m.next.history who key = m.system.history who key := by
  by_cases hwho : who = m.move.who
  · have hother := h.resolve_left (not_not_intro hwho)
    have hstamp : m.stamp? key = none := by
      refine stamp?_of_writes (Option.not_isSome_iff_eq_none.mp fun hwrites => ?_)
      exact hother (.inr hwrites)
    exact (step_other hstamp (read?_of_not_get fun hop => hother (.inl hop))).1 who
  · cases hs : m.session? with
    | none => rw [next, System.step_of_nobody hs]
    | some s => rw [history_next hs, if_neg hwho]

end Moment

/-- A session has greeted its replicas before a place of the run, and one of
    them has answered. -/
def Joined (H : List Moment) (who k : Nat) : Prop :=
  ∃ j m n, j < k ∧ H[j]? = some m ∧ m.move.who = who ∧ m.move.operation = .connect ∧
    m.result? = some (.ok n)

theorem joined_succ {H : List Moment} {who k : Nat} {m : Moment} (hm : H[k]? = some m) :
    Joined H who (k + 1) ↔ Joined H who k ∨
      m.move.who = who ∧ m.move.operation = .connect ∧ ∃ n, m.result? = some (.ok n) := by
  constructor
  · rintro ⟨j, l, n, hj, hl, hwho, hop, hok⟩
    by_cases hjk : j = k
    · rw [hjk, hm, Option.some.injEq] at hl
      subst hl
      exact .inr ⟨hwho, hop, n, hok⟩
    · exact .inl ⟨j, l, n, by omega, hl, hwho, hop, hok⟩
  · rintro (⟨j, l, n, hj, hl, hwho, hop, hok⟩ | ⟨hwho, hop, n, hok⟩)
    · exact ⟨j, l, n, by omega, hl, hwho, hop, hok⟩
    · exact ⟨k, m, n, by omega, hm, hwho, hop, hok⟩

/-- The histories of a system are those that the last of so many moves has
    left; before the first, those of the start. -/
def Inherits (sys : System) (es : List Event) : Nat → System → Prop
  | 0, s => ∀ who key, s.history who key = sys.history who key
  | k + 1, s => ∃ m, (sys.chronicle es)[k]? = some m ∧
      ∀ who key, s.history who key = m.next.history who key

/-- A run in which sessions keep their histories as they should. -/
structure Disciplined (sys : System) (es : List Event) : Prop where
  /-- Changes of levels leave all histories: what a move finds, and what there
      is at the end, is what the move before it has left. -/
  levels : Inherits sys es (sys.chronicle es).length (sys.run es) ∧
    ∀ k m, (sys.chronicle es)[k]? = some m → Inherits sys es k m.system
  /-- A read is turned down, falls short or has an answer. -/
  exits : ∀ m ∈ sys.chronicle es, ∀ s, m.session? = some s → ∀ key,
    m.move.operation = .get key → m.Refused ∨ m.FallsShort ∨ m.Concludes key
  /-- If it has an answer, it leaves the counter-wise maximum of the history and
      of all replies that it has accepted. -/
  get : ∀ m ∈ sys.chronicle es, ∀ key, m.Concludes key →
    ∃ replies, m.read? key = some replies ∧ ∀ node,
      (m.next.history m.move.who key).counter node =
        largestCount (m.system.history m.move.who key) (versions replies) node
  /-- A write that is not turned down adds one to its session's own count and
      goes out under that history, whether it succeeds or falls short. -/
  write : ∀ m ∈ sys.chronicle es, ∀ s, m.session? = some s → ∀ key value,
    m.move.operation.writes? key = some value → ¬ m.Refused →
      ∃ vector, m.stamp? key = some (Session.versionOf value vector) ∧
        m.next.history m.move.who key = vector ∧
        (∀ node, vector.counter node = (m.system.history m.move.who key).counter node +
          if node = s.settings.node then 1 else 0) ∧
        ((∃ n, m.result? = some (.ok (.written ⟨vector, n⟩))) ∨ m.FallsShort)
  /-- What it sends out under that history is what the replicas of the key are
      offered. Those whose calls land by the end of the write have put it into
      their stores, and all other stores are as they were. So each replica has
      what it had, or something that has seen the version. -/
  offered : ∀ m ∈ sys.chronicle es, ∀ s, m.session? = some s → ∀ key v,
    m.stamp? key = some v →
    (∃ effect, m.system.effect? m.move = some effect ∧ ∀ e, m.next.cluster.store? e =
      if e ∈ (s.placement.replicasFor key).endpoints ∧
          (m.move.plan e).lands s.settings.writeTimeout effect.elapsed = true
      then (m.system.cluster.store? e).map (·.put key v)
      else m.system.cluster.store? e) ∧
    ∀ e, m.next.cluster.holds? e key = m.system.cluster.holds? e key ∨
      ∃ u, m.next.cluster.holds? e key = some u ∧ v.vector ≤ u.vector ∧
        (u = v ∨ m.system.cluster.holds? e key = some u)
  /-- Every other exit leaves all histories. -/
  quiet : ∀ m ∈ sys.chronicle es,
    (m.Refused ∨ (∃ key, m.move.operation = .get key) ∧ m.FallsShort ∨
      m.move.operation = .connect ∨ m.move.operation = .stat) →
    ∀ who key, m.next.history who key = m.system.history who key
  /-- So does every move, for other sessions and other keys. -/
  frame : ∀ m ∈ sys.chronicle es, ∀ who key,
    (who ≠ m.move.who ∨ ¬ m.move.operation.Concerns key) →
    m.next.history who key = m.system.history who key
  /-- Who is refused has called nobody. A greeting of which a call breaks off
      has no result to speak of. -/
  silent : ∀ m ∈ sys.chronicle es, m.Refused →
    (m.move.operation = .connect → ∀ e, (m.move.plan e).fate ≠ .broken) → m.Silent
  /-- A session is told that it has not connected until it has, except when it
      is about to. -/
  unconnected : ∀ k m, (sys.chronicle es)[k]? = some m → m.session?.isSome = true →
    (m.result? = some (.error .notConnected) ↔
      m.move.operation ≠ .connect ∧ ¬ Joined (sys.chronicle es) m.move.who k)
  /-- A read or a write is turned down until the session has connected, and where
      the key has no replicas, and never otherwise. -/
  refused : ∀ k m, (sys.chronicle es)[k]? = some m → ∀ s, m.session? = some s → ∀ key,
    m.move.operation.Concerns key →
    (m.Refused ↔ ¬ Joined (sys.chronicle es) m.move.who k ∨
      (s.placement.replicasFor key).isEmpty = true)
  /-- What a session writes is newer than all that it has met of the key. -/
  newer : ∀ (i j : Nat) (m n : Moment), i < j → (sys.chronicle es)[i]? = some m →
    (sys.chronicle es)[j]? = some n → m.move.who = n.move.who →
    ∀ (key : String) (v : Version), n.stamp? key = some v → ∀ vec, m.Meets key vec →
      v.vector.compare vec = .newer

namespace System

variable {sys : System} {es : List Event}

/-- No history changes but by a move. -/
theorem inherits_run : Inherits sys es (sys.chronicle es).length (sys.run es) ∧
    ∀ k m, (sys.chronicle es)[k]? = some m → Inherits sys es k m.system := by
  refine run_induction (fun who key => rfl) ?_ ?_
  · exact fun k m hm _ => ⟨m, hm, fun who key => rfl⟩
  · intro k s other read write h
    cases k with
    | zero => exact fun who key => (history_retune other who read write key).trans (h who key)
    | succ k =>
      rcases h with ⟨m, hm, hsame⟩
      exact ⟨m, hm, fun who key => (history_retune other who read write key).trans (hsame who key)⟩

/-- A session has connected exactly when it has joined. -/
theorem connected_iff_joined (hfresh : ∀ s ∈ sys.sessions, s.connected = false) (k : Nat)
    (m : Moment) (hm : (sys.chronicle es)[k]? = some m) (who : Nat) (s : Session)
    (hs : m.system.sessions[who]? = some s) :
    s.connected = true ↔ Joined (sys.chronicle es) who k := by
  refine (run_induction (P := fun k (sys' : System) => ∀ who s, sys'.sessions[who]? = some s →
    (s.connected = true ↔ Joined (sys.chronicle es) who k)) ?_ ?_ ?_).2 k m hm who s hs
  · intro who s hs
    rw [hfresh s (List.mem_of_getElem? hs)]
    refine iff_of_false Bool.false_ne_true ?_
    rintro ⟨j, m, n, hj, -⟩
    exact Nat.not_lt_zero j hj
  · intro k m hm ih who s hs
    rw [joined_succ hm]
    cases hmover : m.system.sessions[m.move.who]? with
    | none =>
      rw [step_of_nobody hmover] at hs
      rw [ih who s hs]
      refine (or_iff_left ?_).symm
      rintro ⟨-, -, n, hok⟩
      rw [Moment.result?, effect?, hmover] at hok
      cases hok
    | some t =>
      rw [sessions_step hmover] at hs
      by_cases hwho : who = m.move.who
      · rw [if_pos hwho, Option.some.injEq] at hs
        rw [← hs, Session.connected_perform, ih m.move.who t hmover, hwho,
          Moment.result?_eq hmover]
        simp
      · rw [if_neg hwho] at hs
        rw [ih who s hs]
        exact (or_iff_left fun h => hwho h.1.symm).symm
  · intro k sys' other read write ih who s hs
    rw [sessions_retune] at hs
    by_cases hwho : who = other
    · rw [if_pos hwho, Option.map_eq_some_iff] at hs
      rcases hs with ⟨t, ht, rfl⟩
      exact ih who t ht
    · rw [if_neg hwho] at hs
      exact ih who s hs

/-- A write is newer than all that its session has met of the key before. -/
theorem newer_of_meets {i j : Nat} {m n : Moment} (hij : i < j)
    (hm : (sys.chronicle es)[i]? = some m) (hn : (sys.chronicle es)[j]? = some n)
    (hwho : m.move.who = n.move.who) {key : String} {v : Version}
    (hstamp : n.stamp? key = some v) {vec : VersionVector} (hmeets : m.Meets key vec) :
    v.vector.compare vec = .newer := by
  rcases (Moment.step_stamp hstamp).1 with ⟨name, -, hvector⟩
  have hknown : vec ≤ n.system.history n.move.who key := by
    rw [← hwho]
    exact le_trans hmeets.le_history (history_le_later hm hn hij _ key)
  rw [VersionVector.compare_eq_newer_iff, hvector]
  exact lt_of_le_of_lt hknown (VersionVector.lt_update _ _ _)

/-- Every run of sessions that have yet to connect is disciplined, whatever
    replicas reply, and whatever the sessions and the replicas have already. -/
theorem disciplined (sys : System) (hfresh : ∀ s ∈ sys.sessions, s.connected = false)
    (es : List Event) : Disciplined sys es where
  levels := inherits_run
  exits := fun m _ s hs key hop => Moment.get_cases hs hop
  get := by
    intro m _ key hconcludes
    rcases Moment.concludes_iff.mp hconcludes with ⟨replies, hread⟩
    exact ⟨replies, hread, Moment.counter_largest hread⟩
  write := fun m _ s hs key value hwrites hpasses =>
    (Moment.write_cases hs hwrites).resolve_left hpasses
  offered := fun m _ s hs key v hstamp =>
    ⟨Moment.store?_step_stamp hs hstamp, (Moment.step_stamp hstamp).2.2⟩
  quiet := by
    intro m _ hcase
    -- No such move sends out a version or gathers replies.
    have hop : (∀ key, m.move.operation.writes? key = none) →
        (∀ key, m.move.operation ≠ .get key) →
        ∀ who key, m.next.history who key = m.system.history who key := fun hwrites hget =>
      Moment.quiet (fun key => Moment.stamp?_of_writes (hwrites key))
        fun key => Moment.read?_of_not_get (hget key)
    rcases hcase with hrefused | ⟨⟨k, hget⟩, hshort⟩ | hconnect | hstat
    · exact Moment.quiet hrefused.stamp? (Moment.read?_of_nothing (.inl hrefused))
    · refine Moment.quiet (fun key => Moment.stamp?_of_writes ?_)
        (Moment.read?_of_nothing (.inr hshort))
      rw [hget]
      rfl
    · exact hop (fun key => by rw [hconnect]; rfl) fun key => by rw [hconnect]; simp
    · exact hop (fun key => by rw [hstat]; rfl) fun key => by rw [hstat]; simp
  frame := fun m _ who key h => Moment.history_next_of_other h
  silent := fun m _ hrefused hgreet => hrefused.silent hgreet
  unconnected := by
    intro k m hm hsome
    rcases Option.isSome_iff_exists.mp hsome with ⟨s, hs⟩
    have hjoined := connected_iff_joined hfresh k m hm m.move.who s hs
    rw [Moment.result?_eq hs, Option.some.injEq, ← hjoined, Bool.not_eq_true]
    by_cases hop : m.move.operation = .connect
    · rw [hop]
      exact iff_of_false Session.connect_ne_notConnected fun h => h.1 rfl
    · rw [Session.perform_notConnected_iff hop]
      exact (and_iff_right hop).symm
  refused := by
    intro k m hm s hs key hconcerns
    rw [Moment.refused_iff hs hconcerns, Session.sends_eq_false_iff, ← Bool.not_eq_true,
      connected_iff_joined hfresh k m hm m.move.who s hs]
  newer := fun i j m n hij hm hn hwho key v hstamp vec hmeets =>
    newer_of_meets hij hm hn hwho hstamp hmeets

/-- A put that no replica hears of, and a read that is answered by somebody who
    is none. The next put is beyond the one, and beyond what was made up. -/
theorem disciplined_unheard :
    let all : ReplicaSet := ⟨[⟨"a", 1⟩, ⟨"a", 2⟩], by decide⟩
    let sys := start all.endpoints (standardClients all .one ["ann"])
    let ticket : Ticket := ⟨⟨0, 0⟩, ""⟩
    let forged : VersionVector := .ofCounters ⟨0, 0⟩ [("ghost", 7)]
    let es : List Event := [
      .move ⟨0, .connect, fun _ => ⟨some 0, .served⟩, ticket⟩,
      .move ⟨0, .put "k" "one", fun _ => ⟨none, .served⟩, ticket⟩,
      .move ⟨0, .get "k", fun _ => ⟨some 0, .answered (.value (some (.live "x" forged)))⟩, ticket⟩,
      .move ⟨0, .put "k" "two", fun _ => ⟨some 0, .served⟩, ticket⟩]
    let H := sys.chronicle es
    H[1]?.bind Moment.result? = some (.error (.timeout .put 1 0)) ∧
    ∃ lost kept, H[1]?.bind (Moment.stamp? · "k") = some lost ∧
      H[3]?.bind (Moment.stamp? · "k") = some kept ∧
      kept.vector.compare lost.vector = .newer ∧ kept.vector.compare forged = .newer := by
  intro all sys ticket forged es H
  have hfresh : ∀ s ∈ sys.sessions, s.connected = false := by
    intro s hs
    rcases List.mem_map.mp hs with ⟨p, -, rfl⟩
    rfl
  have hwho : H.all (fun m => m.move.who == 0) = true := by cbv
  simp only [List.all_eq_true, beq_iff_eq] at hwho
  have hlost : (H[1]?.any fun m => (m.stamp? "k").isSome) = true := by cbv
  have hlook : (H[2]?.any fun m => m.move.operation == .get "k" &&
      m.result? == some (.ok (.found ⟨"x", forged, 1⟩))) = true := by cbv
  have hkept : (H[3]?.any fun m => (m.stamp? "k").isSome) = true := by cbv
  simp only [Option.any_eq_true, Option.isSome_iff_exists, Bool.and_eq_true, beq_iff_eq]
    at hlost hlook hkept
  rcases hlost with ⟨first, hfirst, lost, hlost⟩
  rcases hlook with ⟨look, hlook, hop, hfound⟩
  rcases hkept with ⟨last, hlast, kept, hkept⟩
  have hsame : ∀ {m : Moment} {k : Nat}, H[k]? = some m → m.move.who = last.move.who :=
    fun hm => (hwho _ (List.mem_of_getElem? hm)).trans
      (hwho _ (List.mem_of_getElem? hlast)).symm
  have hnewer := (disciplined sys hfresh es).newer
  refine ⟨by cbv, lost, kept, by rw [hfirst]; exact hlost, by rw [hlast]; exact hkept, ?_, ?_⟩
  · exact hnewer 1 3 first last (by decide) hfirst hlast (hsame hfirst) "k" kept hkept _
      (.stamp hlost)
  · exact hnewer 2 3 look last (by decide) hlook hlast (hsame hlook) "k" kept hkept _
      (.found hop hfound)

end System

end QuorumStore
