import QuorumStore.Proofs.Cluster.Asking
import QuorumStore.Proofs.Session.Keys

/-!
# Guards

What a session turns down, and what it says then.

An operation needs replicas to call, and all but a greeting need a session that
has connected. Where one of the two is missing the session turns the operation
down, and nothing of it happens. `turnsDown` tells which operations these are.

The converse is what a caller relies on. There are two errors that say of an
operation that it was turned down, and no operation that has called a replica
ends in one of them, whatever the replicas reply. The one place where this is
not plain to see is a greeting that nobody answers. It has no error of its own
to report and passes on the last one that it met, so it must have met one. It
has, unless all its calls broke off; a call that breaks off leaves no error.

## Main definitions

* `OpError.isRefusal`, `OpError.isShortfall`: The errors of an operation that is
  turned down, and those of calls that fell short.
* `Session.turnsDown`: The session turns an operation down.

## Theorems

* `Session.perform_of_turnsDown`: What is turned down does nothing.
* `Session.turnsDown_of_refusal`: What is refused was turned down.
* `Session.perform_notConnected_iff`: Who is told to connect has not connected.
* `Session.connected_perform`: Who has connected.
* `Session.perform_write_outcome`: What a write that is sent out comes to.
-/

namespace QuorumStore

namespace OpError

/-- The operation was turned down. -/
def isRefusal : OpError → Bool
  | .notConnected | .noReplicas => true
  | _ => false

/-- The calls of the operation fell short. -/
def isShortfall : OpError → Bool
  | .transport _ _ | .timeout _ _ _ => true
  | _ => false

end OpError

namespace Effect

variable {α β : Type} {f : α → β} {x : Effect α}

theorem result_map_eq_error_iff {e : OpError} :
    (x.map f).result = .error e ↔ x.result = .error e := by
  rw [map]
  cases x.result <;> simp [Except.map]

theorem result_map_eq_ok_iff {b : β} :
    (x.map f).result = .ok b ↔ ∃ a, x.result = .ok a ∧ f a = b := by
  rw [map]
  cases x.result <;> simp [Except.map]

theorem exists_result_map_eq_ok_iff :
    (∃ b, (x.map f).result = .ok b) ↔ ∃ a, x.result = .ok a := by
  rw [map]
  cases x.result <;> simp [Except.map]

end Effect

namespace Session

theorem isShortfall_shortfallError (operation : Kind) (needed : Nat) (short : Shortfall) :
    (shortfallError operation needed short).isShortfall = true := by
  cases short <;> rfl

/-- The two kinds of error exclude each other. -/
theorem not_isRefusal_of_isShortfall {e : OpError} (h : e.isShortfall = true) :
    e.isRefusal = false := by
  cases e <;> first | rfl | cases h

variable {s : Session} {c : Cluster} {plan : Endpoint → Plan} {ticket : Ticket}
  {op : Operation} {key : String}

/-- The session turns the operation down. -/
def turnsDown (s : Session) : Operation → Bool
  | .connect => s.placement.everywhere.isEmpty
  | .get key | .put key _ | .delete key => !s.sends key
  | .stat => !s.connected

theorem isRefusal_refusal (s : Session) : s.refusal.isRefusal = true := by
  unfold refusal
  cases s.connected <;> rfl

theorem connect_refused (c : Cluster) (plan : Endpoint → Plan)
    (h : s.placement.everywhere.isEmpty = true) : s.connect c plan = s.refuse c {} .noReplicas := by
  simp only [connect, h, if_true]

/-- An operation that is turned down does nothing but fail, whatever would have
    become of its calls. -/
theorem perform_of_turnsDown (c : Cluster) (h : s.turnsDown op = true) :
    ∃ counted e, e.isRefusal = true ∧ (op ≠ .connect → e = s.refusal) ∧
      ∀ plan ticket, s.perform c plan ticket op = s.refuse c counted e := by
  cases op with
  | connect =>
    refine ⟨{}, .noReplicas, rfl, fun hop => absurd rfl hop, fun plan ticket => ?_⟩
    rw [perform, connect_refused c plan h]
    rfl
  | get key =>
    rw [turnsDown, Bool.not_eq_true'] at h
    refine ⟨if s.connected then { gets := 1 } else {}, _, s.isRefusal_refusal, fun _ => rfl,
      fun plan ticket => ?_⟩
    rw [perform, get_of_not_sends c plan h]
    rfl
  | put key value =>
    rw [turnsDown, Bool.not_eq_true'] at h
    refine ⟨if s.connected then { puts := 1 } else {}, _, s.isRefusal_refusal, fun _ => rfl,
      fun plan ticket => ?_⟩
    rw [perform, put, write_of_not_sends c plan ticket (some value) h]
    rfl
  | delete key =>
    rw [turnsDown, Bool.not_eq_true'] at h
    refine ⟨if s.connected then { deletes := 1 } else {}, _, s.isRefusal_refusal, fun _ => rfl,
      fun plan ticket => ?_⟩
    rw [perform, delete, write_of_not_sends c plan ticket none h]
    rfl
  | stat =>
    rw [turnsDown, Bool.not_eq_true'] at h
    refine ⟨{}, .notConnected, rfl, fun _ => by rw [refusal, h]; rfl, fun plan ticket => ?_⟩
    simp only [perform, stat, h, Bool.not_false, if_true]
    rfl

/-- What is turned down sends nothing. -/
theorem outgoing?_of_turnsDown (ticket : Ticket) (h : s.turnsDown op = true) :
    s.outgoing? ticket op = none := by
  cases op with
  | connect => simp only [outgoing?, if_pos (show s.placement.everywhere.isEmpty = true from h)]
  | stat =>
    rw [turnsDown, Bool.not_eq_true'] at h
    simp [outgoing?, h]
  | _ =>
    rw [turnsDown, Bool.not_eq_true'] at h
    rcases sends_eq_false_iff.mp h with hconn | hempty
    · simp [outgoing?, hconn]
    · simp [outgoing?, hempty]

section Greetings

/-- Greetings that did not all break off have brought a reply or an error. -/
theorem greetings_heard {limit : Nat} {replies : List (Endpoint × Option Reply)}
    (hne : replies ≠ []) (hheard : ∀ r ∈ replies, r.2 ≠ some .broken) :
    (greetings limit replies).accepted ≠ [] ∨ (greetings limit replies).lastFailure ≠ none := by
  -- The last of them is enough, since later ones take nothing away.
  rcases List.eq_nil_or_concat replies with hnil | ⟨front, r, rfl⟩
  · exact absurd hnil hne
  · have hr := hheard r (by simp)
    rw [greetings, List.concat_eq_append, List.foldl_append, List.foldl_cons, List.foldl_nil]
    rcases r with ⟨e, _ | reply⟩
    · simp [greeting, Tally.record]
    · cases reply with
      | error err => simp [greeting, Reply.judge, Tally.record]
      | broken => exact absurd rfl hr
      | response response =>
        cases response <;> simp [greeting, Reply.judge, Tally.record]

/-- No reply breaks off unless a call does. -/
theorem askEach_heard {replicas : ReplicaSet} {request : Request} {limit : Nat}
    (hplan : ∀ e, (plan e).fate ≠ .broken) {r : Endpoint × Option Reply}
    (hr : r ∈ (c.askEach plan replicas request limit).1) : r.2 ≠ some .broken := by
  intro hbroken
  rw [Cluster.askEach_replies] at hr
  obtain ⟨e, -, rfl⟩ := List.mem_map.mp hr
  exact hplan e (Cluster.fate_of_meet_broken (Cluster.heard?_eq_some_iff.mp hbroken).2)

/-- A greeting that is sent and fails passes on an error of a call, unless one
    of its calls broke off. -/
theorem connect_error {e : OpError} (hempty : s.placement.everywhere.isEmpty = false)
    (herror : (s.connect c plan).result = .error e) :
    (∃ endpoint cause, e = .transport endpoint cause) ∨
      e = .noReplicas ∧ ∃ endpoint, (plan endpoint).fate = .broken := by
  simp only [connect, hempty, Bool.false_eq_true, if_false] at herror
  split at herror
  · rename_i haccepted
    simp only [Except.error.injEq] at herror
    split at herror
    · exact .inl ⟨_, _, herror.symm⟩
    · rename_i hlast
      refine .inr ⟨herror.symm, ?_⟩
      by_contra hplan
      rw [not_exists] at hplan
      have hne : (c.askEach plan s.placement.everywhere .ping s.settings.statTimeout).1 ≠ [] := by
        simpa [Cluster.askEach, ReplicaSet.isEmpty] using hempty
      rcases @greetings_heard s.settings.statTimeout _ hne fun r hr => askEach_heard hplan hr
        with h | h
      · exact h (List.isEmpty_iff.mp haccepted)
      · exact h hlast
  · cases herror

end Greetings

/-- A write that is sent out returns the vector it went out under, or its calls
    fell short. -/
theorem perform_write_outcome (c : Cluster) (plan : Endpoint → Plan) (ticket : Ticket)
    {value : Option String} (hsends : s.sends key = true) (hwrites : op.writes? key = some value) :
    (∃ n, (s.perform c plan ticket op).result = .ok (.written ⟨s.nextVector ticket key, n⟩)) ∨
      ∃ e, (s.perform c plan ticket op).result = .error e ∧ e.isShortfall = true := by
  rw [perform_write hwrites, write_of_sends hsends]
  cases hr : (s.writeCalls c plan ticket key value).1.result with
  | ok replies => exact .inl ⟨replies.length, rfl⟩
  | error short => exact .inr ⟨_, rfl, isShortfall_shortfallError _ _ _⟩

/-- A read that is sent out is not refused. -/
theorem get_error {e : OpError} (hsends : s.sends key = true)
    (herror : (s.get c plan key).result = .error e) : e.isRefusal = false := by
  rw [get_of_sends hsends] at herror
  cases hr : (s.readCalls c plan key).1.result with
  | error short =>
    simp only [hr, Except.error.injEq] at herror
    rw [← herror]
    exact not_isRefusal_of_isShortfall (isShortfall_shortfallError _ _ _)
  | ok replies =>
    simp only [hr, concludeGet] at herror
    split at herror
    · rw [← Except.error.inj herror]
      rfl
    · rw [← Except.error.inj herror]
      rfl
    · split at herror
      · rw [← Except.error.inj herror]
        rfl
      · cases herror

/-- An operation that is refused was turned down, if it is no greeting of which
    a call broke off. -/
theorem turnsDown_of_refusal {e : OpError}
    (hgreet : op = .connect → ∀ endpoint, (plan endpoint).fate ≠ .broken)
    (herror : (s.perform c plan ticket op).result = .error e) (he : e.isRefusal = true) :
    s.turnsDown op = true := by
  by_contra hpasses
  rw [Bool.not_eq_true] at hpasses
  -- Behind the guards every operation ends in an answer or in another error.
  have hnot : ∀ {e' : OpError}, e = e' → e'.isRefusal = false → False := by
    intro e' hee' he'
    rw [← hee', he] at he'
    cases he'
  have hwrite : ∀ (key : String) (value : Option String), op.writes? key = some value →
      s.sends key = true → False := by
    intro key value hwrites hsends
    rcases perform_write_outcome c plan ticket hsends hwrites with ⟨n, hok⟩ | ⟨e', hshort, he'⟩
    · rw [hok] at herror
      cases herror
    · rw [hshort] at herror
      exact hnot (Except.error.inj herror).symm (not_isRefusal_of_isShortfall he')
  cases op with
  | connect =>
    rcases connect_error hpasses (Effect.result_map_eq_error_iff.mp herror)
      with ⟨endpoint, cause, htransport⟩ | ⟨-, endpoint, hbroken⟩
    · exact hnot htransport rfl
    · exact hgreet rfl endpoint hbroken
  | get key =>
    have hsends : s.sends key = true := by simpa [turnsDown] using hpasses
    exact hnot rfl (get_error hsends (Effect.result_map_eq_error_iff.mp herror))
  | put key value =>
    exact hwrite key (some value) (if_pos rfl) (by simpa [turnsDown] using hpasses)
  | delete key => exact hwrite key none (if_pos rfl) (by simpa [turnsDown] using hpasses)
  | stat =>
    rw [turnsDown, Bool.not_eq_false'] at hpasses
    have hstat := Effect.result_map_eq_error_iff.mp herror
    simp only [stat, hpasses, Bool.not_true, Bool.false_eq_true, if_false, reduceCtorEq] at hstat

/-- An operation is told that there is no connection exactly when there is
    none; a greeting does not ask for one. -/
theorem perform_notConnected_iff (hop : op ≠ .connect) :
    (s.perform c plan ticket op).result = .error .notConnected ↔ s.connected = false := by
  constructor
  · intro herror
    have hdown := turnsDown_of_refusal (fun h => absurd h hop) herror rfl
    rcases perform_of_turnsDown c hdown with ⟨counted, e, -, he, hrefuse⟩
    rw [hrefuse, he hop] at herror
    have hrefusal := Except.error.inj herror
    unfold refusal at hrefusal
    cases hconn : s.connected with
    | false => rfl
    | true =>
      rw [hconn] at hrefusal
      cases hrefusal
  · intro hconn
    have hdown : s.turnsDown op = true := by
      cases op with
      | connect => exact absurd rfl hop
      | stat => rw [turnsDown, hconn]; rfl
      | _ => rw [turnsDown, sends, hconn]; rfl
    rcases perform_of_turnsDown c hdown with ⟨counted, e, -, he, hrefuse⟩
    rw [hrefuse, he hop, refusal, hconn]
    rfl

/-- A greeting is never told that there is no connection. -/
theorem connect_ne_notConnected :
    (s.perform c plan ticket .connect).result ≠ .error .notConnected := by
  intro herror
  have hconnect := Effect.result_map_eq_error_iff.mp herror
  cases hempty : s.placement.everywhere.isEmpty with
  | true =>
    rw [connect_refused c plan hempty] at hconnect
    cases hconnect
  | false =>
    rcases connect_error hempty hconnect with ⟨endpoint, cause, he⟩ | ⟨he, -⟩ <;> cases he

/-- A session has connected if it had, or if it does and succeeds. -/
theorem connected_perform : (s.perform c plan ticket op).session.connected = true ↔
    s.connected = true ∨ op = .connect ∧ ∃ a, (s.perform c plan ticket op).result = .ok a := by
  have hwrite : ∀ (key : String) (value : Option String),
      (s.write c plan ticket key value).session.connected = s.connected := by
    intro key value
    cases hsends : s.sends key with
    | false => rw [write_of_not_sends c plan ticket value hsends]; rfl
    | true => rw [write_of_sends hsends]; rfl
  cases op with
  | connect =>
    rw [perform, Effect.exists_result_map_eq_ok_iff]
    simp only [Effect.map, true_and]
    cases hempty : s.placement.everywhere.isEmpty with
    | true => simp [connect_refused c plan hempty, refuse]
    | false =>
      simp only [connect, hempty, Bool.false_eq_true, if_false]
      split <;> simp
  | get key =>
    have hget : (s.get c plan key).session.connected = s.connected := by
      cases hgathered : s.gathered? c plan key with
      | none => rw [(get_of_not_gathered hgathered).1]
      | some replies =>
        rw [(get_of_gathered hgathered).2, observe]
        split <;> rfl
    simp [perform, Effect.map, hget]
  | put key value => simp [perform, Effect.map, put, hwrite]
  | delete key => simp [perform, Effect.map, delete, hwrite]
  | stat => simp [perform, Effect.map, (stat_quiet s c plan).1]

end Session

end QuorumStore
