import QuorumStore.Proofs.Session.Guards
import QuorumStore.Proofs.Shell.Dictionary
import QuorumStore.Proofs.System.Quorum
import QuorumStore.Proofs.System.Readback

/-!
# The Shell as a Dictionary

A session that reads as many replicas as its writes leave out none of is as
good as a dictionary.

The replicas do not agree with each other. A write ends as soon as it has the
acknowledgements that its level asks for, and the calls that are still under
way then are given up; so some replicas have the last version of a key, some
have an older one and some none. What holds them together is that all versions
come from one session. They are stamps of one history that only ever grows,
and none of them is concurrent with another.

`Shows` is the invariant, for one key. Nothing that a replica holds is beyond
the session's history. Either nothing was written, or the last version that was
written is alone at the top: a replica that holds anything as new holds that
version, and so many replicas hold it that none of the reads to come can miss
all of them. Such a read gathers the version and nothing that is not older, so
it is what survives. `Shows.writes` and `Shows.reads` carry the invariant over
the two kinds of operation, and `Shows.quiet` over all that concerns other
keys.

## Main definitions

* `Shell.Input`: A line, and the circumstances in which it is given.
* `Shell.Place`: A line with the session and the cluster that it finds.
* `Shell.places`: Line after line.
* `Version.content?`: What a version says of its key.
* `Newest`: The last version that was written.
* `Shows`: The replicas show a dictionary's value of a key.

## Theorems

* `Newest.survivors`: A read meets the last version, and nothing else survives.
* `Shows.writes`, `Shows.reads`, `Shows.quiet`: What keeps the invariant.
* `Shell.step_shows`: A line is answered as the dictionary answers it.
* `Shell.refines_dictionary`: So is every sequence of lines.
-/

namespace QuorumStore

namespace Shell

/-- A line, and the circumstances in which it is given to the shell. -/
structure Input where
  line : String
  /-- The levels that the session is given before; one that is not named
      stays. -/
  read : Option Level
  write : Option Level
  /-- The plans of the calls of each kind. -/
  plan : Kind → Endpoint → Plan
  ticket : Ticket

/-- A line with the session and the cluster that it finds. -/
structure Place where
  session : Session
  cluster : Cluster
  input : Input

namespace Place

/-- What the shell says to the line, and the effect if there is one. -/
def outcome (p : Place) : Reply × Option (Effect Answer) :=
  execute p.session p.cluster p.input.plan p.input.ticket p.input.line

/-- The session and the cluster behind the line. -/
def behind (p : Place) : Session × Cluster :=
  match p.outcome.2 with
  | some e => (e.session, e.cluster)
  | none => (p.session, p.cluster)

/-- The line reads a key. -/
def Reads (p : Place) (key : String) : Prop := Shell.read p.input.line = .operation (.get key)

/-- The line writes a key. -/
def Writes (p : Place) (key : String) : Prop :=
  ∃ op, Shell.read p.input.line = .operation op ∧ (op.writes? key).isSome = true

/-- The calls of the line are not too few to answer it. -/
def Answered (p : Place) : Prop :=
  ∀ e err, p.outcome.2 = some e → e.result = .error err → err.isShortfall = false

end Place

/-- Line after line, each at its place. -/
def places (s : Session) (c : Cluster) : List Input → List Place
  | [] => []
  | i :: is =>
    let p : Place := ⟨s.setLevels i.read i.write, c, i⟩
    p :: places p.behind.1 p.behind.2 is

end Shell

/-- What a version says of its key: a value, or that there is none. -/
def Version.content? (v : Version) : Option String := if v.tombstone then none else some v.value

theorem Version.content?_versionOf (value : Option String) (vector : VersionVector) :
    (Session.versionOf value vector).content? = value := by
  cases value <;> rfl

/-- The last version of a key that a session has written. -/
structure Newest (all : ReplicaSet) (s : Session) (c : Cluster) (later : List Shell.Place)
    (key : String) (v : Version) : Prop where
  history : s.history key ≤ v.vector
  /-- What is as new is this version itself. -/
  alone : ∀ e u, c.holds? e key = some u → v.vector ≤ u.vector → u = v
  /-- No read to come can miss all that hold it. -/
  quorum : ∃ Q : List Endpoint, Q.Nodup ∧
    (∀ e ∈ Q, e ∈ all.endpoints ∧ c.holds? e key = some v) ∧
    ∀ q ∈ later, q.Reads key →
      all.size < q.session.settings.readLevel.required all.size + Q.length

/-- The replicas show a dictionary's value of a key to the lines to come. -/
structure Shows (all : ReplicaSet) (s : Session) (c : Cluster) (later : List Shell.Place)
    (key : String) (value : Option String) : Prop where
  known : ∀ e u, c.holds? e key = some u → u.vector ≤ s.history key
  current : (value = none ∧ ∀ e, c.holds? e key = none) ∨
    ∃ v, Newest all s c later key v ∧ value = v.content?

section Step

variable {all : ReplicaSet} {s s' : Session} {c c' : Cluster} {p : Shell.Place}
  {later rest : List Shell.Place} {key : String} {value : Option String} {v : Version}

/-- A session that can do something about every key. -/
structure Session.Ready (all : ReplicaSet) (s : Session) : Prop where
  connected : s.connected = true
  placement : s.placement = .uniform all
  nonempty : 0 < all.size

theorem Session.Ready.replicasFor (h : s.Ready all) (key : String) :
    s.placement.replicasFor key = all := by
  rw [h.placement]
  rfl

theorem Session.Ready.sends (h : s.Ready all) (key : String) : s.sends key = true := by
  rw [sends_iff, h.replicasFor, ReplicaSet.isEmpty, List.isEmpty_eq_false_iff]
  exact ⟨h.connected, List.ne_nil_of_length_pos h.nonempty⟩

theorem Session.Ready.perform (h : s.Ready all) (c : Cluster) (plan : Endpoint → Plan)
    (ticket : Ticket) (op : Operation) : (s.perform c plan ticket op).session.Ready all :=
  ⟨connected_perform.mpr (.inl h.connected),
    (perform_keeps s c plan ticket op).2.trans h.placement, h.nonempty⟩

/-- A history that grows, but not beyond the last version, keeps what is shown
    to those that are left of the lines to come. -/
theorem Shows.grows (h : Shows all s c later key value) (hrest : ∀ q ∈ rest, q ∈ later)
    (hup : s.history key ≤ s'.history key)
    (htop : ∀ v, Newest all s c later key v → s'.history key ≤ v.vector)
    (hholds : ∀ e, c'.holds? e key = c.holds? e key) : Shows all s' c' rest key value := by
  constructor
  · intro e u hu
    exact le_trans (h.known e u ((hholds e).symm.trans hu)) hup
  · rcases h.current with ⟨hnone, hempty⟩ | ⟨v, hv, hvalue⟩
    · exact .inl ⟨hnone, fun e => (hholds e).trans (hempty e)⟩
    · rcases hv.quorum with ⟨Q, hQ, hhold, hlarge⟩
      exact .inr ⟨v, ⟨htop v hv, fun e u hu => hv.alone e u ((hholds e).symm.trans hu), Q, hQ,
        fun e he => ⟨(hhold e he).1, (hholds e).trans (hhold e he).2⟩,
        fun q hq => hlarge q (hrest q hq)⟩, hvalue⟩

/-- What changes neither the history of a key nor its versions keeps what is
    shown of it. -/
theorem Shows.quiet (h : Shows all s c later key value) (hrest : ∀ q ∈ rest, q ∈ later)
    (hhistory : s'.history key = s.history key)
    (hholds : ∀ e, c'.holds? e key = c.holds? e key) : Shows all s' c' rest key value := by
  refine h.grows hrest (le_of_eq hhistory.symm) (fun v hv => ?_) hholds
  rw [hhistory]
  exact hv.history

section Read

variable {plan : Endpoint → Plan} {replies : List (Endpoint × Option Version)}

/-- A read gathers the last version, and it survives alone. -/
theorem Newest.survivors (h : Newest all p.session p.cluster later key v)
    (hknown : ∀ e u, p.cluster.holds? e key = some u → u.vector ≤ p.session.history key)
    (hp : p ∈ later) (hreads : p.Reads key) (hready : p.session.Ready all)
    (hhonest : ∀ e, (plan e).Honest)
    (hgathered : p.session.gathered? p.cluster plan key = some replies) :
    Version.reconcile (versions replies) = [v] := by
  rcases h.quorum with ⟨Q, hQ, hhold, hlarge⟩
  -- The read meets a replica that holds it.
  have hmem : v ∈ versions replies := by
    rcases Session.gathered_meets hhonest hgathered
      (fun e => by rw [hready.replicasFor]) hQ (fun e he => (hhold e he).1)
      (hlarge p hp hreads) with ⟨e, he, hreply⟩
    rw [(hhold e he).2] at hreply
    exact mem_versions.mpr ⟨e, hreply⟩
  refine Version.reconcile_eq_singleton hmem (fun u hu => ?_) fun u hu hvu => ?_
  · rcases Session.held_of_gathered hhonest hgathered hu with ⟨f, hf⟩
    exact le_trans (hknown f u hf) h.history
  · rcases Session.held_of_gathered hhonest hgathered hu with ⟨f, hf⟩
    exact h.alone f u hf hvu

/-- A read that is not answered by its replies falls short. -/
theorem Session.gathered?_of_answered {plan : Endpoint → Plan} (hsends : s.sends key = true)
    (hanswered : ∀ e, (s.get c plan key).result = .error e → e.isShortfall = false) :
    ∃ replies, s.gathered? c plan key = some replies := by
  cases hgathered : s.gathered? c plan key with
  | some replies => exact ⟨replies, rfl⟩
  | none =>
    rcases (get_of_not_gathered hgathered).2 with ⟨e, he, hfound, hconflict⟩
    have hrefusal := get_error hsends he
    have hshort := hanswered e he
    -- Every kind of error is excluded.
    cases e with
    | notConnected => cases hrefusal
    | noReplicas => cases hrefusal
    | transport endpoint cause => cases hshort
    | timeout operation needed got => cases hshort
    | conflict k siblings => exact absurd rfl (hconflict k siblings)
    | notFound k => exact absurd rfl (hfound k)

/-- What is said to a read with one survivor. -/
theorem answerText_concludeGet_singleton (policy : Policy) (key : String) (n : Nat) (v : Version) :
    Shell.Reply.output (Shell.answerText
      ((Session.concludeGet policy key n [v]).map .found)) = Dictionary.show? v.content? := by
  rw [Session.concludeGet_singleton, Version.content?]
  cases v.tombstone <;> rfl

/-- A read answers with what is shown, and goes on showing it. -/
theorem Shows.reads (h : Shows all p.session p.cluster later key value) (hp : p ∈ later)
    (hreads : p.Reads key) (hready : p.session.Ready all) (hhonest : ∀ e, (plan e).Honest)
    (ticket : Ticket)
    (hanswered : ∀ e, (p.session.perform p.cluster plan ticket (.get key)).result = .error e →
      e.isShortfall = false) (hrest : ∀ q ∈ rest, q ∈ later) :
    let effect := p.session.perform p.cluster plan ticket (.get key)
    Shell.Reply.output (Shell.answerText effect.result) = Dictionary.show? value ∧
      Shows all effect.session effect.cluster rest key value := by
  intro effect
  rcases Session.gathered?_of_answered (hready.sends key)
    (fun e he => hanswered e (Effect.result_map_eq_error_iff.mpr he)) with ⟨replies, hgathered⟩
  rcases Session.perform_read ticket (Session.read?_eq_some_iff.mpr ⟨rfl, hgathered⟩)
    with ⟨hresult, hsession, hholds⟩
  constructor
  · rw [show effect.result = _ from hresult]
    rcases h.current with ⟨hnone, hempty⟩ | ⟨v, hv, hvalue⟩
    · have hnothing : versions replies = [] := by
        rw [List.eq_nil_iff_forall_not_mem]
        intro u hu
        rcases Session.held_of_gathered hhonest hgathered hu with ⟨e, he⟩
        rw [hempty] at he
        cases he
      rw [hnothing, Version.reconcile_nil, hnone]
      rfl
    · rw [hv.survivors h.known hp hreads hready hhonest hgathered, hvalue]
      exact answerText_concludeGet_singleton _ _ _ _
  · -- What the history takes in was known to it, or comes from the last version.
    refine h.grows hrest (fun node => ?_) (fun v hv node => ?_) hholds
    · rw [show effect.session = _ from hsession, Session.le_counter_history_observe]
      exact .inl (Nat.le_refl _)
    · rw [show effect.session = _ from hsession]
      rcases (Session.le_counter_history_observe _ _ _ _ _).mp (Nat.le_refl _)
        with hle | ⟨u, hu, hle⟩
      · exact Nat.le_trans hle (hv.history node)
      · rcases Session.held_of_gathered hhonest hgathered hu with ⟨e, he⟩
        exact Nat.le_trans hle (le_trans (h.known e u he) hv.history node)

end Read

/-- A write that succeeds is shown from then on, to the reads that are large
    enough to meet it. -/
theorem Shows.writes (h : Shows all s c later key value) (hready : s.Ready all)
    {plan : Endpoint → Plan} (hhonest : ∀ e, (plan e).Honest) {ticket : Ticket} {op : Operation}
    {new : Option String} (hwrites : op.writes? key = some new)
    (hanswered : ∀ e, (s.perform c plan ticket op).result = .error e → e.isShortfall = false)
    (hoverlap : ∀ q ∈ rest, q.Reads key →
      all.size < q.session.settings.readLevel.required all.size +
        s.settings.writeLevel.required all.size) :
    let effect := s.perform c plan ticket op
    Shell.answerText effect.result = "ok" ∧
      Shows all effect.session effect.cluster rest key new := by
  intro effect
  have hok : ∃ a, effect.result = .ok a ∧ Shell.answerText effect.result = "ok" := by
    rcases Session.perform_write_outcome c plan ticket (hready.sends key) hwrites
      with ⟨n, hn⟩ | ⟨e, he, hshort⟩
    · exact ⟨_, hn, by rw [show effect.result = _ from hn]; rfl⟩
    · rw [hanswered e he] at hshort
      cases hshort
  rcases hok with ⟨a, hok, htext⟩
  have hstamp : s.stamp? ticket op key =
      some (Session.versionOf new (s.nextVector ticket key)) :=
    Session.stamp?_eq_some_iff.mpr ⟨hready.sends key, new, hwrites, rfl⟩
  rw [← Version.content?_versionOf new (s.nextVector ticket key)]
  generalize Session.versionOf new (s.nextVector ticket key) = v at hstamp
  rcases Session.perform_stamp c plan hstamp with ⟨hvector, hsession, hholds⟩
  have hhistory : effect.session.history key = v.vector := by
    rw [show effect.session = _ from hsession, Session.history_setHistory_self]
  -- The new version is above everything that is there.
  have hlt : ∀ e u, c.holds? e key = some u → u.vector < v.vector := by
    intro e u hu
    rw [hvector]
    exact lt_of_le_of_lt (h.known e u hu) (VersionVector.lt_update _ _ _)
  have hheld : ∀ e u, effect.cluster.holds? e key = some u →
      u = v ∨ u.vector < v.vector := by
    intro e u hu
    rcases hholds e with hsame | ⟨w, hw, -, hold⟩
    · exact .inr (hlt e u (hsame.symm.trans hu))
    · rw [show effect.cluster.holds? e key = _ from hw, Option.some.injEq] at hu
      rw [← hu]
      exact hold.imp_right (hlt e w)
  refine ⟨htext, ?_, .inr ⟨v, ⟨?_, ?_, ?_⟩, rfl⟩⟩
  · intro e u hu
    rw [hhistory]
    rcases hheld e u hu with rfl | hu
    · exact le_refl _
    · exact le_of_lt hu
  · rw [hhistory]
  · intro e u hu hvu
    rcases hheld e u hu with rfl | hu
    · rfl
    · exact absurd hvu (not_le_of_gt hu)
  · rcases (Session.perform_acked hhonest hstamp hok).2 with ⟨Q, hQ, hlen, hacked⟩
    rw [hready.replicasFor] at hlen hacked
    refine ⟨Q, hQ, fun e he => ⟨(hacked e he).1, ?_⟩, fun q hq hreads => ?_⟩
    · rcases (hacked e he).2 with ⟨st, hst, hput⟩
      exact hput.trans (Cluster.get?_put_of_news hst fun u hu => not_le_of_gt (hlt e u hu))
    · rw [hlen]
      exact hoverlap q hq hreads

/-- An operation on another key leaves what is shown of a key. -/
theorem Shows.other (h : Shows all s c later key value) (hrest : ∀ q ∈ rest, q ∈ later)
    (plan : Endpoint → Plan) (ticket : Ticket) {op : Operation}
    (hwrites : op.writes? key = none) (hreads : op ≠ .get key) :
    Shows all (s.perform c plan ticket op).session (s.perform c plan ticket op).cluster rest key
      value := by
  have hstamp : s.stamp? ticket op key = none := by
    rw [Option.eq_none_iff_forall_ne_some]
    intro v hv
    rcases (Session.stamp?_eq_some_iff.mp hv).2 with ⟨new, hnew, -⟩
    rw [hwrites] at hnew
    cases hnew
  rcases @Session.perform_other s c plan ticket op key hstamp (if_neg hreads)
    with ⟨hhistory, hholds⟩
  exact h.quiet hrest hhistory hholds

/-- An operation writes one key at most. -/
theorem Operation.writes?_other {op : Operation} {k : String} {new : Option String}
    (h : op.writes? key = some new) (hk : k ≠ key) : op.writes? k = none := by
  cases op with
  | put key' value =>
    rcases Option.ite_none_right_eq_some.mp h with ⟨hkey, -⟩
    rw [writes?, hkey, if_neg (Ne.symm hk)]
  | delete key' =>
    rcases Option.ite_none_right_eq_some.mp h with ⟨hkey, -⟩
    rw [writes?, hkey, if_neg (Ne.symm hk)]
  | connect => rfl
  | get key' => rfl
  | stat => rfl

/-- A dictionary that is shown is shown with every write. -/
theorem shows_set {d : Dictionary} (h : ∀ k, Shows all s c later k (d k))
    (hrest : ∀ q ∈ rest, q ∈ later) (hready : s.Ready all) {plan : Endpoint → Plan}
    (hhonest : ∀ e, (plan e).Honest) {ticket : Ticket} {op : Operation} {new : Option String}
    (hwrites : op.writes? key = some new)
    (hanswered : ∀ e, (s.perform c plan ticket op).result = .error e → e.isShortfall = false)
    (hoverlap : ∀ q ∈ rest, q.Reads key →
      all.size < q.session.settings.readLevel.required all.size +
        s.settings.writeLevel.required all.size) :
    let effect := s.perform c plan ticket op
    Shell.answerText effect.result = "ok" ∧
      ∀ k, Shows all effect.session effect.cluster rest k (d.set key new k) := by
  have hkey := (h key).writes hready hhonest hwrites hanswered hoverlap
  refine ⟨hkey.1, fun k => ?_⟩
  by_cases hk : k = key
  · rw [hk, Dictionary.set_self]
    exact hkey.2
  · rw [Dictionary.set_other _ _ hk]
    refine (h k).other hrest plan ticket (Operation.writes?_other hwrites hk) ?_
    rintro rfl
    cases hwrites

/-- A dictionary that is shown is shown after every read, which answers from
    it. -/
theorem shows_get {d : Dictionary} (h : ∀ k, Shows all p.session p.cluster later k (d k))
    (hrest : ∀ q ∈ rest, q ∈ later) (hp : p ∈ later) (hreads : p.Reads key)
    (hready : p.session.Ready all) {plan : Endpoint → Plan} (hhonest : ∀ e, (plan e).Honest)
    {ticket : Ticket}
    (hanswered : ∀ e, (p.session.perform p.cluster plan ticket (.get key)).result = .error e →
      e.isShortfall = false) :
    let effect := p.session.perform p.cluster plan ticket (.get key)
    Shell.Reply.output (Shell.answerText effect.result) = Dictionary.show? (d key) ∧
      ∀ k, Shows all effect.session effect.cluster rest k (d k) := by
  have hkey := (h key).reads hp hreads hready hhonest ticket hanswered hrest
  refine ⟨hkey.1, fun k => ?_⟩
  by_cases hk : k = key
  · rw [hk]
    exact hkey.2
  · refine (h k).other hrest plan ticket rfl ?_
    rintro ⟨⟩
    exact hk rfl

end Step

namespace Shell

variable {all : ReplicaSet} {p : Place} {rest : List Place} {d : Dictionary}

/-- A line that asks for an operation is answered by it. -/
theorem Place.outcome_of_operation {op : Operation}
    (h : Shell.read p.input.line = .operation op) :
    let effect := p.session.perform p.cluster (p.input.plan op.kind) p.input.ticket op
    p.outcome = (.output (answerText effect.result), some effect) ∧
      p.behind = (effect.session, effect.cluster) := by
  intro effect
  have houtcome : p.outcome = (.output (answerText effect.result), some effect) := by
    simp only [outcome, execute, h, effect]
  exact ⟨houtcome, by rw [behind, houtcome]⟩

/-- The effect of the operation that the line asks for. -/
def Place.effect? (p : Place) : Option (Effect Answer) :=
  match Shell.read p.input.line with
  | .operation op => some (p.session.perform p.cluster (p.input.plan op.kind) p.input.ticket op)
  | _ => none

theorem Place.outcome_snd (p : Place) : p.outcome.2 = p.effect? := by
  rw [outcome, execute, effect?]
  cases Shell.read p.input.line <;> rfl

/-- The calls were not too few for the effect. -/
def endsWell (e : Effect Answer) : Bool :=
  match e.result with
  | .ok _ => true
  | .error err => !err.isShortfall

theorem Place.answered_iff : p.Answered ↔ ∀ e, p.effect? = some e → endsWell e = true := by
  rw [Answered, outcome_snd]
  refine forall_congr' fun e => ⟨fun h he => ?_, fun h err he herror => ?_⟩
  · unfold endsWell
    cases hresult : e.result with
    | ok a => rfl
    | error err => exact (Bool.not_eq_true' _).mpr (h err he hresult)
  · have hends := h he
    rw [endsWell, herror] at hends
    exact (Bool.not_eq_true' _).mp hends

/-- A line that asks for none changes neither the replicas nor a dictionary. -/
theorem Place.outcome_of_quiet (h : ∀ op, Shell.read p.input.line ≠ .operation op)
    (d : Dictionary) :
    p.outcome.1 = (d.follow (Shell.read p.input.line)).1 ∧
      p.behind = (p.session, p.cluster) ∧ (d.follow (Shell.read p.input.line)).2 = d := by
  rw [behind, outcome, execute]
  cases hread : Shell.read p.input.line with
  | operation op => exact absurd hread (h op)
  | blank => exact ⟨rfl, rfl, rfl⟩
  | mistake e => exact ⟨rfl, rfl, rfl⟩
  | exit => exact ⟨rfl, rfl, rfl⟩

/-- A line is answered as the dictionary answers it, and the replicas go on
    showing what the dictionary has. -/
theorem step_shows (hready : p.session.Ready all)
    (hshows : ∀ key, Shows all p.session p.cluster (p :: rest) key (d key))
    (hhonest : ∀ kind e, (p.input.plan kind e).Honest)
    (hstat : Shell.read p.input.line ≠ .operation .stat) (hanswered : p.Answered)
    (hoverlap : ∀ q ∈ rest, ∀ key, p.Writes key → q.Reads key →
      all.size < q.session.settings.readLevel.required all.size +
        p.session.settings.writeLevel.required all.size) :
    p.outcome.1 = (d.answer (arguments p.input.line)).1 ∧ p.behind.1.Ready all ∧
      ∀ key, Shows all p.behind.1 p.behind.2 rest key
        ((d.answer (arguments p.input.line)).2 key) := by
  have hrest : ∀ q ∈ rest, q ∈ p :: rest := fun q hq => List.mem_cons_of_mem _ hq
  rw [(d.answer_arguments hstat).1]
  by_cases hquiet : ∀ op, Shell.read p.input.line ≠ .operation op
  · rcases Place.outcome_of_quiet hquiet d with ⟨hreply, hbehind, hsame⟩
    rw [hreply, hbehind, hsame]
    exact ⟨rfl, hready, fun key => (hshows key).quiet hrest rfl fun e => rfl⟩
  · rcases not_forall_not.mp hquiet with ⟨op, hop⟩
    rcases Place.outcome_of_operation hop with ⟨houtcome, hbehind⟩
    have hends : ∀ e, (p.session.perform p.cluster (p.input.plan op.kind) p.input.ticket
        op).result = .error e → e.isShortfall = false :=
      fun e he => hanswered _ e (congrArg Prod.snd houtcome) he
    have hset := fun (key : String) (new : Option String) (hwrites : op.writes? key = some new) =>
      shows_set hshows hrest hready (hhonest op.kind) hwrites hends
        fun q hq => hoverlap q hq key ⟨op, hop, by rw [hwrites]; rfl⟩
    rw [houtcome, hbehind, hop]
    cases op with
    | get key =>
      rcases shows_get hshows hrest List.mem_cons_self hop hready (hhonest .get) hends
        with ⟨hreply, hafter⟩
      exact ⟨hreply, hready.perform _ _ _ _, hafter⟩
    | put key value =>
      rcases hset key (some value) (if_pos rfl) with ⟨hreply, hafter⟩
      exact ⟨congrArg Reply.output hreply, hready.perform _ _ _ _, hafter⟩
    | delete key =>
      rcases hset key none (if_pos rfl) with ⟨hreply, hafter⟩
      exact ⟨congrArg Reply.output hreply, hready.perform _ _ _ _, hafter⟩
    | connect => exact absurd hop (read_ne_connect _)
    | stat => exact absurd hop hstat

/-- Line after line is answered as a dictionary answers it that the replicas
    show at the start. -/
theorem places_shows {s : Session} {c : Cluster} {inputs : List Input}
    (hready : s.Ready all)
    (hshows : ∀ key, Shows all s c (places s c inputs) key (d key))
    (hhonest : ∀ i ∈ inputs, ∀ kind e, (i.plan kind e).Honest)
    (hstat : ∀ i ∈ inputs, Shell.read i.line ≠ .operation .stat)
    (hanswered : ∀ p ∈ places s c inputs, p.Answered)
    (hoverlap : (places s c inputs).Pairwise fun p q => ∀ key, p.Writes key → q.Reads key →
      all.size < q.session.settings.readLevel.required all.size +
        p.session.settings.writeLevel.required all.size) :
    (places s c inputs).map (·.outcome.1) = d.answers (inputs.map fun i => arguments i.line) := by
  induction inputs generalizing s c d with
  | nil => rfl
  | cons i is ih =>
    rw [places] at hanswered hoverlap hshows ⊢
    rcases List.pairwise_cons.mp hoverlap with ⟨hhere, hafter⟩
    -- The levels that the session is given do not touch what it remembers.
    have hready' : (s.setLevels i.read i.write).Ready all := ⟨hready.1, hready.2, hready.3⟩
    have hstep := step_shows (d := d) (p := ⟨s.setLevels i.read i.write, c, i⟩) hready'
      (fun key => (hshows key).quiet (fun q hq => hq) rfl fun e => rfl)
      (hhonest i List.mem_cons_self) (hstat i List.mem_cons_self)
      (hanswered _ List.mem_cons_self) hhere
    rcases hstep with ⟨hreply, hready'', hshows'⟩
    rw [List.map_cons, List.map_cons, Dictionary.answers, hreply]
    congr 1
    exact ih hready'' hshows' (fun j hj => hhonest j (List.mem_cons_of_mem _ hj))
      (fun j hj => hstat j (List.mem_cons_of_mem _ hj))
      (fun q hq => hanswered q (List.mem_cons_of_mem _ hq)) hafter

theorem mem_places {s : Session} {c : Cluster} {inputs : List Input} (h : p ∈ places s c inputs) :
    p.input ∈ inputs := by
  induction inputs generalizing s c with
  | nil => cases h
  | cons i is ih =>
    rcases List.mem_cons.mp h with rfl | h
    · exact List.mem_cons_self
    · exact List.mem_cons_of_mem _ (ih h)

/-- The shell over replicas that hold nothing is as good as an empty
    dictionary, line after line, if every read reaches more replicas than an
    earlier write of the key can have left out, no response is made up, and no
    calls fall short. Levels and delays may change from line to line. A line
    that is about no key changes neither the session nor a replica. -/
theorem refines_dictionary (all : ReplicaSet) (hsize : 0 < all.size) (s : Session)
    (hconnected : s.connected = true) (hplacement : s.placement = .uniform all) (c : Cluster)
    (hempty : ∀ e key, c.holds? e key = none) (inputs : List Input)
    (hhonest : ∀ i ∈ inputs, ∀ kind e, (i.plan kind e).Honest)
    (hstat : ∀ i ∈ inputs, Shell.read i.line ≠ .operation .stat)
    (hanswered : ∀ p ∈ places s c inputs, p.Answered)
    (hoverlap : (places s c inputs).Pairwise fun p q => ∀ key, p.Writes key → q.Reads key →
      all.size < q.session.settings.readLevel.required all.size +
        p.session.settings.writeLevel.required all.size) :
    (places s c inputs).map (·.outcome.1) =
      Dictionary.empty.answers (inputs.map fun i => arguments i.line) ∧
    ∀ p ∈ places s c inputs, Dictionary.keyOf? (arguments p.input.line) = none →
      p.behind = (p.session, p.cluster) := by
  refine ⟨places_shows ⟨hconnected, hplacement, hsize⟩ (fun key => ⟨?_, .inl ⟨rfl, ?_⟩⟩) hhonest
    hstat hanswered hoverlap, ?_⟩
  · intro e u hu
    rw [hempty] at hu
    cases hu
  · exact fun e => hempty e key
  · intro p hp hkey
    have hnostat := hstat p.input (mem_places hp)
    rw [(Dictionary.answer_arguments .empty hnostat).2] at hkey
    refine (Place.outcome_of_quiet (fun op hop => ?_) .empty).2.1
    rw [hop] at hkey hnostat
    cases op with
    | get key => cases hkey
    | put key value => cases hkey
    | delete key => cases hkey
    | connect => exact read_ne_connect _ hop
    | stat => exact hnostat rfl

/-- Plans for three replicas of which the third hears of no write, and the
    response of the first to every read is lost. -/
def stragglers : Kind → Endpoint → Plan
  | .get, ⟨_, 1⟩ => ⟨some 9, .servedUnheard⟩
  | .put, ⟨_, 3⟩ => ⟨none, .served⟩
  | .delete, ⟨_, 3⟩ => ⟨none, .served⟩
  | _, _ => ⟨some 1, .served⟩

theorem honest_stragglers (kind : Kind) (e : Endpoint) : (stragglers kind e).Honest := by
  unfold stragglers
  split <;> exact ⟨nofun, nofun⟩

/-- With such replicas the shell is as good as a dictionary at the level of a
    majority. -/
theorem refines_dictionary_stragglers :
    let all : ReplicaSet := ⟨[⟨"a", 1⟩, ⟨"a", 2⟩, ⟨"a", 3⟩], by decide⟩
    let s : Session := { Session.start (Settings.standard "ann") (.uniform all) with
      connected := true }
    let inputs : List Input := ["put k 'first value'", "get k", "put k second", " get k\r\n",
      "get other", "del k", "get k", "  ", "put k", "who", "exit now"].map fun line =>
        ⟨line, some .quorum, some .quorum, stragglers, ⟨⟨0, 0⟩, ""⟩⟩
    (places s (Cluster.fresh all.endpoints) inputs).map (·.outcome.1) =
      [.output "ok", .output "first value", .output "ok", .output "second",
        .output "error: key not found", .output "ok", .output "error: key not found", .output "",
        .output "usage: put <key> <value>", .output "unknown command", .exit] := by
  intro all s inputs
  have hfacts : (places s (Cluster.fresh all.endpoints) inputs).all (fun p =>
      p.session.settings.readLevel == .quorum && p.session.settings.writeLevel == .quorum &&
      p.effect?.all endsWell) = true := by
    -- The effects are computed without their texts.
    simp only [inputs, List.map, places, Place.behind, Place.outcome_snd, List.all]
    cbv
  simp only [List.all_eq_true, Bool.and_eq_true, beq_iff_eq, Option.all_eq_true] at hfacts
  have hlines : (inputs.all fun i => Shell.read i.line != .operation .stat) = true := by cbv
  simp only [List.all_eq_true, bne_iff_ne] at hlines
  refine (refines_dictionary all (by decide) s rfl rfl (Cluster.fresh all.endpoints)
    (@System.holds?_start all.endpoints []) inputs ?_ hlines ?_ ?_).1.trans (by cbv)
  · intro i hi
    rcases List.mem_map.mp hi with ⟨line, -, rfl⟩
    exact honest_stragglers
  · exact fun p hp => Place.answered_iff.mpr (hfacts p hp).2
  · refine List.pairwise_of_forall_mem_list fun p hp q hq key _ _ => ?_
    rw [(hfacts q hq).1.1, (hfacts p hp).1.2]
    decide

end Shell

end QuorumStore
