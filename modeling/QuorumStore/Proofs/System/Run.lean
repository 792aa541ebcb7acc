import QuorumStore.Proofs.Session.Keys

/-!
# Runs

Everything that happens to a system, one move after another.

A run is a list of events. Most of them are moves; now and then a session is
given other levels, which is no operation and leaves no trace by itself. The
`chronicle` of a run lists its moves, each with the system that it found. What
happened at a place of the chronicle can be looked up there, so a statement
about a run — this write came before that read — is a statement about places.

Invariants of runs are proved with `run_induction`. It takes a property of the
system and of the number of moves so far, and wants to know that a move and a
change of levels keep it. What it gives back is the property at the end and at
every place of the chronicle. `run_induction_from` does the same for what
begins to hold with a move in the middle. The moves themselves are described by three
lemmas, as seen from one key: `step_stamp`, `step_read` and `step_other`.

## Main definitions

* `Event`: A move, or a change of levels.
* `Event.Honest`, `Event.Truthful`: No answer of a replica, or at least no
  version, is made up.
* `System.start`: Sessions that have done nothing, over empty replicas.
* `System.run`: The system behind a list of events.
* `Moment`: A move, with the system that it found.
* `System.chronicle`: The moves of a run.
* `System.history`: What a session remembers of a key.
* `System.Named`: Sessions have their names, and no two the same.
* `Moment.stamp?`, `Moment.read?`, `Moment.result?`: What a move sends out,
  what it gathers, and what it comes to.
* `Moment.Concludes`: A read that has an answer.
* `promptly`, `standardClients`: Runs and sessions without anything special.

## Theorems

* `System.run_induction`, `System.run_induction_from`: Invariants of runs.
* `System.charter_run`, `System.named_run`: What never changes.
* `System.history_le_later`: What never shrinks.
* `Moment.step_stamp`, `Moment.step_read`, `Moment.step_other`: Moves seen from
  a key.
* `Moment.store?_step_stamp`: What a write leaves at each replica.
* `Moment.read?_isSome_iff`: Which moves gather replies.
* `Moment.mem_read`: Gathered replies are what the replicas hold.
-/

namespace QuorumStore

/-- Something that happens to a system. -/
inductive Event where
  /-- A session does something. -/
  | move (m : Move)
  /-- A session is given other levels; one that is not named stays. -/
  | retune (who : Nat) (read write : Option Level)

/-- No version and no acknowledgement is made up. -/
def Event.Honest : Event → Prop
  | .move m => ∀ e, (m.plan e).Honest
  | .retune _ _ _ => True

/-- No version is made up. -/
def Event.Truthful : Event → Prop
  | .move m => ∀ e, (m.plan e).Truthful
  | .retune _ _ _ => True

namespace System

/-- Sessions that have done nothing yet, over replicas that hold nothing. A
    session that joins later is one that makes its first move later. -/
def start (endpoints : List Endpoint) (clients : List (Settings × Placement)) : System :=
  ⟨Cluster.fresh endpoints, clients.map fun p => Session.start p.1 p.2, {}⟩

/-- The system after a session is given other levels. -/
def retune (sys : System) (who : Nat) (read write : Option Level) : System :=
  { sys with sessions := sys.sessions.modify who fun s => s.setLevels read write }

/-- The system after an event. -/
def advance (sys : System) : Event → System
  | .move m => sys.step m
  | .retune who read write => sys.retune who read write

/-- The system after a list of events. -/
def run (sys : System) (es : List Event) : System := es.foldl advance sys

end System

/-- A move, with the system that it found. -/
structure Moment where
  system : System
  move : Move

/-- The moves of a run. -/
def System.chronicle (sys : System) : List Event → List Moment
  | [] => []
  | .move m :: es => ⟨sys, m⟩ :: (sys.step m).chronicle es
  | .retune who read write :: es => (sys.retune who read write).chronicle es

namespace System

variable {sys : System} {es : List Event}

/-- What holds at the start and is kept by every event holds at the end of a
    run and at each of its moves. The number of moves so far goes along. -/
theorem run_induction {P : Nat → System → Prop} (start : P 0 sys)
    (move : ∀ k m, (sys.chronicle es)[k]? = some m → P k m.system →
      P (k + 1) (m.system.step m.move))
    (retune : ∀ k s who read write, P k s → P k (s.retune who read write)) :
    P (sys.chronicle es).length (sys.run es) ∧
    ∀ k m, (sys.chronicle es)[k]? = some m → P k m.system := by
  -- The chronicle is split in two: what has happened, and the rest from here.
  suffices h : ∀ (rest : List Event) (past : List Moment) (s : System),
      sys.chronicle es = past ++ s.chronicle rest → P past.length s →
      P (sys.chronicle es).length (s.run rest) ∧
      ∀ k m, past.length ≤ k → (sys.chronicle es)[k]? = some m → P k m.system by
    rcases h es ([] : List Moment) sys rfl start with ⟨hend, hall⟩
    exact ⟨hend, fun k m => hall k m (Nat.zero_le k)⟩
  intro rest
  induction rest with
  | nil =>
    intro past s hsplit hP
    rw [chronicle, List.append_nil] at hsplit
    rw [hsplit]
    refine ⟨hP, fun k m hk hm => ?_⟩
    rw [List.getElem?_eq_none hk] at hm
    cases hm
  | cons e rest ih =>
    intro past s hsplit hP
    cases e with
    | retune who read write =>
      exact ih past (s.retune who read write) hsplit (retune _ s who read write hP)
    | move m =>
      -- The move stands right behind what has happened so far.
      have hhere : (sys.chronicle es)[past.length]? = some ⟨s, m⟩ := by
        rw [hsplit, chronicle, List.getElem?_append_right (Nat.le_refl _), Nat.sub_self]
        rfl
      rw [chronicle, List.append_cons] at hsplit
      have hlen : (past ++ [(⟨s, m⟩ : Moment)]).length = past.length + 1 := by
        rw [List.length_append, List.length_singleton]
      have hstep : P (past ++ [(⟨s, m⟩ : Moment)]).length (s.step m) := by
        rw [hlen]
        exact move _ _ hhere hP
      rcases ih _ (s.step m) hsplit hstep with ⟨hend, hall⟩
      refine ⟨hend, fun k n hk hn => ?_⟩
      by_cases hlast : k = past.length
      · rw [hlast, hhere, Option.some.injEq] at hn
        rw [hlast, ← hn]
        exact hP
      · exact hall k n (by omega) hn

/-- What holds behind a move and is kept by every event after it holds at each
    of the moves that follow. -/
theorem run_induction_from {P : Nat → System → Prop} {p : Nat} {m : Moment}
    (hm : (sys.chronicle es)[p]? = some m) (start : P (p + 1) (m.system.step m.move))
    (move : ∀ k n, p < k → (sys.chronicle es)[k]? = some n → P k n.system →
      P (k + 1) (n.system.step n.move))
    (retune : ∀ k s who read write, P k s → P k (s.retune who read write))
    {q : Nat} {n : Moment} (hn : (sys.chronicle es)[q]? = some n) (hpq : p < q) :
    P q n.system := by
  -- Up to the move there is nothing to show.
  refine (@run_induction sys es (fun k s => p < k → P k s) ?_ ?_ ?_).2 q n hn hpq
  · exact fun hp => absurd hp (Nat.not_lt_zero p)
  · intro k l hl ih hpk
    by_cases hk : k = p
    · subst hk
      rw [hm, Option.some.injEq] at hl
      rw [← hl]
      exact start
    · exact move k l (by omega) hl (ih (by omega))
  · intro k s who read write ih hpk
    exact retune k s who read write (ih hpk)

/-- The moves of a chronicle are among the events of its run. -/
theorem move_of_chronicle {m : Moment} (hm : m ∈ sys.chronicle es) : .move m.move ∈ es := by
  induction es generalizing sys with
  | nil => cases hm
  | cons f es ih =>
    cases f with
    | retune who read write => exact List.mem_cons_of_mem _ (ih hm)
    | move n =>
      rcases List.mem_cons.mp hm with rfl | hm
      · exact List.mem_cons_self
      · exact List.mem_cons_of_mem _ (ih hm)

/-- The moves of an honest run are honest. -/
theorem honest_of_chronicle (hhonest : ∀ e ∈ es, e.Honest) {m : Moment}
    (hm : m ∈ sys.chronicle es) (e : Endpoint) : (m.move.plan e).Honest :=
  hhonest _ (move_of_chronicle hm) e

/-- What a session remembers of a key; a session that is not there remembers
    nothing. -/
def history (sys : System) (who : Nat) (key : String) : VersionVector :=
  match sys.sessions[who]? with
  | some s => s.history key
  | none => .empty

/-- What a session is told once and for all: its name, its policy and its
    replicas. -/
def charter? (sys : System) (who : Nat) : Option (String × Policy × Placement) :=
  (sys.sessions[who]?).map fun s => (s.settings.node, s.settings.policy, s.placement)

/-- The name of a session. -/
def name? (sys : System) (who : Nat) : Option String := (sys.charter? who).map (·.1)

theorem sessions_step {m : Move} {s : Session} (hs : sys.sessions[m.who]? = some s) (who : Nat) :
    (sys.step m).sessions[who]? =
      if who = m.who then some (s.perform sys.cluster m.plan m.ticket m.operation).session
      else sys.sessions[who]? := by
  have hlt : m.who < sys.sessions.length := (List.getElem?_eq_some_iff.mp hs).1
  rw [step, effect?, hs]
  simp only [Option.map_some, settle]
  by_cases h : who = m.who
  · rw [if_pos h, h, List.getElem?_set_self hlt]
  · rw [if_neg h, List.getElem?_set_ne (Ne.symm h)]

theorem cluster_step {m : Move} {s : Session} (hs : sys.sessions[m.who]? = some s) :
    (sys.step m).cluster = (s.perform sys.cluster m.plan m.ticket m.operation).cluster := by
  rw [step, effect?, hs]
  rfl

theorem step_of_nobody {m : Move} (hs : sys.sessions[m.who]? = none) : sys.step m = sys := by
  rw [step, effect?, hs]
  rfl

theorem charter_step (m : Move) (who : Nat) : (sys.step m).charter? who = sys.charter? who := by
  cases hs : sys.sessions[m.who]? with
  | none => rw [step_of_nobody hs]
  | some s =>
    rw [charter?, charter?, sessions_step hs]
    by_cases h : who = m.who
    · rcases s.perform_keeps sys.cluster m.plan m.ticket m.operation with ⟨hsettings, hplacement⟩
      rw [if_pos h, h, hs, Option.map_some, Option.map_some, hsettings, hplacement]
    · rw [if_neg h]

theorem sessions_retune (who other : Nat) (read write : Option Level) :
    (sys.retune who read write).sessions[other]? =
      if other = who then (sys.sessions[other]?).map fun s => s.setLevels read write
      else sys.sessions[other]? := by
  rw [retune, List.getElem?_modify]
  by_cases h : other = who
  · rw [if_pos h, h]
    simp
  · rw [if_neg h]
    simp [Ne.symm h]

theorem charter_retune (who other : Nat) (read write : Option Level) :
    (sys.retune who read write).charter? other = sys.charter? other := by
  rw [charter?, charter?, sessions_retune]
  by_cases h : other = who
  · rw [if_pos h, Option.map_map]
    rfl
  · rw [if_neg h]

theorem history_retune (who other : Nat) (read write : Option Level) (key : String) :
    (sys.retune who read write).history other key = sys.history other key := by
  rw [history, history, sessions_retune]
  by_cases h : other = who
  · rw [if_pos h]
    cases sys.sessions[other]? <;> rfl
  · rw [if_neg h]

theorem history_of_session {who : Nat} {s : Session} (hs : sys.sessions[who]? = some s)
    (key : String) : sys.history who key = s.history key := by
  rw [history, hs]

end System

namespace Moment

variable {m : Moment} {key : String}

/-- The session that makes the move. -/
def session? (m : Moment) : Option Session := m.system.sessions[m.move.who]?

/-- The system behind the move. -/
def next (m : Moment) : System := m.system.step m.move

/-- The version of a key that the move sends out. -/
def stamp? (m : Moment) (key : String) : Option Version :=
  m.session?.bind fun s => s.stamp? m.move.ticket m.move.operation key

/-- The replies about a key that the move gathers. -/
def read? (m : Moment) (key : String) : Option (List (Endpoint × Option Version)) :=
  m.session?.bind fun s => s.read? m.system.cluster m.move.plan m.move.operation key

/-- The versions among the replies that survive reconciliation. -/
def survivors (m : Moment) (key : String) : List Version :=
  match m.read? key with
  | some replies => Version.reconcile (versions replies)
  | none => []

/-- What the move comes to. -/
def result? (m : Moment) : Option (Except OpError Answer) :=
  (m.system.effect? m.move).map (·.result)

theorem result?_eq {s : Session} (hs : m.session? = some s) :
    m.result? = some
      (s.perform m.system.cluster m.move.plan m.move.ticket m.move.operation).result := by
  rw [result?, System.effect?, show m.system.sessions[m.move.who]? = some s from hs]
  rfl

theorem result?_eq_some_iff {r : Except OpError Answer} :
    m.result? = some r ↔ ∃ s, m.session? = some s ∧
      (s.perform m.system.cluster m.move.plan m.move.ticket m.move.operation).result = r := by
  rw [result?, System.effect?, Option.map_map, Option.map_eq_some_iff]
  rfl

theorem history_next {s : Session} (hs : m.session? = some s) (who : Nat) (key : String) :
    m.next.history who key = if who = m.move.who then
      (s.perform m.system.cluster m.move.plan m.move.ticket m.move.operation).session.history key
      else m.system.history who key := by
  rw [next, System.history, System.sessions_step hs]
  by_cases h : who = m.move.who
  · rw [if_pos h, if_pos h]
  · rw [if_neg h, if_neg h]
    rfl

theorem cluster_next {s : Session} (hs : m.session? = some s) :
    m.next.cluster =
      (s.perform m.system.cluster m.move.plan m.move.ticket m.move.operation).cluster :=
  System.cluster_step hs

/-- A write that is sent out goes under its session's history, one write
    further. The session keeps that history, the others keep theirs, and every
    replica is left as it was or with something that covers the version. -/
theorem step_stamp {v : Version} (h : m.stamp? key = some v) :
    (∃ name, m.system.name? m.move.who = some name ∧
      v.vector = (m.system.history m.move.who key).update name m.move.ticket.now) ∧
    (∀ who, m.next.history who key =
      if who = m.move.who then v.vector else m.system.history who key) ∧
    ∀ e, m.next.cluster.holds? e key = m.system.cluster.holds? e key ∨
      ∃ u, m.next.cluster.holds? e key = some u ∧ v.vector ≤ u.vector ∧
        (u = v ∨ m.system.cluster.holds? e key = some u) := by
  rcases Option.bind_eq_some_iff.mp h with ⟨s, hs, hstamp⟩
  rcases Session.perform_stamp m.system.cluster m.move.plan hstamp
    with ⟨hvector, hsession, hholds⟩
  refine ⟨⟨s.settings.node, ?_, ?_⟩, fun who => ?_, ?_⟩
  · rw [System.name?, System.charter?, show m.system.sessions[m.move.who]? = some s from hs]
    rfl
  · rw [hvector, System.history_of_session hs]
    rfl
  · rw [history_next hs, hsession, Session.history_setHistory_self]
  · rw [cluster_next hs]
    exact hholds

/-- The version that a write sends out is what its calls offer: whom they reach
    in time has put it into its store, every other store is as it was. -/
theorem store?_step_stamp {s : Session} (hs : m.session? = some s) {v : Version}
    (h : m.stamp? key = some v) :
    ∃ effect, m.system.effect? m.move = some effect ∧ ∀ e, m.next.cluster.store? e =
      if e ∈ (s.placement.replicasFor key).endpoints ∧
          (m.move.plan e).lands s.settings.writeTimeout effect.elapsed = true
      then (m.system.cluster.store? e).map (·.put key v)
      else m.system.cluster.store? e := by
  rw [stamp?, hs, Option.bind_some] at h
  refine ⟨_, congrArg (Option.map _) hs, fun e => ?_⟩
  rw [cluster_next hs]
  exact Session.store?_perform_stamp m.system.cluster m.move.plan h e

/-- A read that gathers its replies takes their vectors into its session's
    history, and changes nothing else. -/
theorem step_read {replies : List (Endpoint × Option Version)}
    (h : m.read? key = some replies) :
    (∀ node x, x ≤ (m.next.history m.move.who key).counter node ↔
      x ≤ (m.system.history m.move.who key).counter node ∨
      ∃ v ∈ versions replies, x ≤ v.vector.counter node) ∧
    (∀ who, who ≠ m.move.who → m.next.history who key = m.system.history who key) ∧
    ∀ e, m.next.cluster.holds? e key = m.system.cluster.holds? e key := by
  rcases Option.bind_eq_some_iff.mp h with ⟨s, hs, hread⟩
  rcases Session.perform_read m.move.ticket hread with ⟨-, hsession, hholds⟩
  refine ⟨fun node x => ?_, fun who hwho => ?_, ?_⟩
  · rw [history_next hs, if_pos rfl, hsession, Session.le_counter_history_observe,
      System.history_of_session hs]
  · rw [history_next hs, if_neg hwho]
  · rw [cluster_next hs]
    exact hholds

/-- Behind a write, a replica holds what was written or what it held before. -/
theorem held_of_stamp {u v : Version} (h : m.stamp? key = some v) {e : Endpoint}
    (hu : m.next.cluster.holds? e key = some u) :
    u = v ∨ m.system.cluster.holds? e key = some u := by
  rcases (step_stamp h).2.2 e with hsame | ⟨u', hu', -, hcase⟩
  · exact .inr (hsame.symm.trans hu)
  · rw [hu, Option.some.injEq] at hu'
    rw [hu']
    exact hcase

/-- A count behind a read is one from before it, or that of a version which
    the read has taken in. -/
theorem counter_of_read {replies : List (Endpoint × Option Version)}
    (h : m.read? key = some replies) (node : String) :
    (m.next.history m.move.who key).counter node =
      (m.system.history m.move.who key).counter node ∨
    ∃ v ∈ versions replies,
      (m.next.history m.move.who key).counter node = v.vector.counter node := by
  have hhistory := (step_read h).1 node
  rcases (hhistory _).mp (Nat.le_refl _) with hle | ⟨v, hv, hle⟩
  · have hge := (hhistory _).mpr (.inl (Nat.le_refl _))
    exact .inl (Nat.le_antisymm hle hge)
  · have hge := (hhistory _).mpr (.inr ⟨v, hv, Nat.le_refl _⟩)
    exact .inr ⟨v, hv, Nat.le_antisymm hle hge⟩

/-- Every other move changes nothing about the key. -/
theorem step_other (hstamp : m.stamp? key = none) (hread : m.read? key = none) :
    (∀ who, m.next.history who key = m.system.history who key) ∧
    ∀ e, m.next.cluster.holds? e key = m.system.cluster.holds? e key := by
  cases hs : m.session? with
  | none =>
    rw [next, System.step_of_nobody hs]
    exact ⟨fun who => rfl, fun e => rfl⟩
  | some s =>
    -- The session has nothing to send and nothing to take in.
    rw [stamp?, hs, Option.bind_some] at hstamp
    rw [read?, hs, Option.bind_some] at hread
    rcases Session.perform_other hstamp hread with ⟨hhistory, hholds⟩
    refine ⟨fun who => ?_, ?_⟩
    · rw [history_next hs]
      by_cases hwho : who = m.move.who
      · rw [if_pos hwho, hwho, System.history_of_session hs]
        exact hhistory
      · rw [if_neg hwho]
    · rw [cluster_next hs]
      exact hholds

/-- A move that writes a key does not read it. -/
theorem read?_of_stamp? {v : Version} (h : m.stamp? key = some v) : m.read? key = none := by
  rcases Option.bind_eq_some_iff.mp h with ⟨s, hs, hstamp⟩
  rcases Session.stamp?_eq_some_iff.mp hstamp with ⟨-, value, hwrites, -⟩
  rw [read?, hs, Option.bind_some, Session.read?, if_neg]
  intro hop
  rw [hop] at hwrites
  cases hwrites

/-- A move gathers replies about a key exactly when it is a read of it that
    finds a value, finds nothing or meets a conflict. -/
theorem read?_isSome_iff :
    (m.read? key).isSome = true ↔ m.move.operation = .get key ∧
      ((∃ f, m.result? = some (.ok (.found f))) ∨
        (∃ k, m.result? = some (.error (.notFound k))) ∨
        ∃ k siblings, m.result? = some (.error (.conflict k siblings))) := by
  cases hs : m.session? with
  | none =>
    have hresult : m.result? = none := by
      rw [result?, System.effect?, show m.system.sessions[m.move.who]? = none from hs]
      rfl
    simp [read?, hs, hresult]
  | some s =>
    rw [result?_eq hs, read?, hs, Option.bind_some, Session.read?]
    by_cases hop : m.move.operation = .get key
    · rw [if_pos hop, hop, Session.gathered?_isSome_iff]
      simp only [Session.perform, Effect.map]
      cases (s.get m.system.cluster m.move.plan key).result <;> simp [Except.map]
    · simp [hop]

/-- The move is a read of the key that finds a value, finds nothing or meets a
    conflict. -/
def Concludes (m : Moment) (key : String) : Prop :=
  m.move.operation = .get key ∧
    ((∃ f, m.result? = some (.ok (.found f))) ∨
      (∃ k, m.result? = some (.error (.notFound k))) ∨
      ∃ k siblings, m.result? = some (.error (.conflict k siblings)))

theorem concludes_iff : m.Concludes key ↔ ∃ replies, m.read? key = some replies :=
  read?_isSome_iff.symm.trans Option.isSome_iff_exists

/-- A read that gathers its replies answers by the survivors of them. -/
theorem result?_of_read? {replies : List (Endpoint × Option Version)}
    (h : m.read? key = some replies) : ∃ s, m.session? = some s ∧
      m.result? = some ((Session.concludeGet s.settings.policy key replies.length
        (Version.reconcile (versions replies))).map .found) := by
  rcases Option.bind_eq_some_iff.mp h with ⟨s, hs, hread⟩
  refine ⟨s, hs, ?_⟩
  rw [result?_eq hs, (Session.perform_read m.move.ticket hread).1]

theorem result?_of_surface {s : Session} (hs : m.session? = some s)
    (hpolicy : s.settings.policy = .surface) (hsome : (m.read? key).isSome = true) :
    ∃ n, m.result? = some
      ((Session.concludeGet .surface key n (m.survivors key)).map .found) := by
  rcases Option.isSome_iff_exists.mp hsome with ⟨replies, hread⟩
  rcases result?_of_read? hread with ⟨s', hs', hresult⟩
  rw [hs, Option.some.injEq] at hs'
  refine ⟨replies.length, ?_⟩
  rw [hresult, ← hs', hpolicy, survivors, hread]

/-- No session ever forgets anything. -/
theorem history_le_next (m : Moment) (who : Nat) (key : String) :
    m.system.history who key ≤ m.next.history who key := by
  cases hstamp : m.stamp? key with
  | some v =>
    rcases step_stamp hstamp with ⟨⟨name, -, hvector⟩, hhistories, -⟩
    rw [hhistories]
    by_cases hwho : who = m.move.who
    · rw [if_pos hwho, hvector, hwho]
      exact VersionVector.le_update _ _ _
    · rw [if_neg hwho]
  | none =>
    cases hread : m.read? key with
    | some replies =>
      rcases step_read hread with ⟨hhistory, hothers, -⟩
      by_cases hwho : who = m.move.who
      · subst hwho
        exact fun node => (hhistory node _).mpr (.inl (Nat.le_refl _))
      · rw [hothers who hwho]
    | none => rw [(step_other hstamp hread).1 who]

/-- Gathered replies are what the session's replicas hold. -/
theorem mem_read {replies : List (Endpoint × Option Version)}
    (hhonest : ∀ e, (m.move.plan e).Honest) (h : m.read? key = some replies) :
    ∃ s, m.session? = some s ∧
      replies.length = s.settings.readLevel.required (s.placement.replicasFor key).size ∧
      (replies.map Prod.fst).Nodup ∧
      ∀ p ∈ replies, p.1 ∈ (s.placement.replicasFor key).endpoints ∧
        m.system.cluster.holds? p.1 key = p.2 := by
  rcases Option.bind_eq_some_iff.mp h with ⟨s, hs, hread⟩
  exact ⟨s, hs, Session.mem_gathered hhonest (Session.read?_eq_some_iff.mp hread).2⟩

/-- Every version that an honest read gathers is held by some replica. -/
theorem held_of_read {replies : List (Endpoint × Option Version)} {v : Version}
    (hhonest : ∀ e, (m.move.plan e).Honest) (h : m.read? key = some replies)
    (hv : v ∈ versions replies) : ∃ e, m.system.cluster.holds? e key = some v := by
  rcases Option.bind_eq_some_iff.mp h with ⟨s, -, hread⟩
  exact Session.held_of_gathered hhonest (Session.read?_eq_some_iff.mp hread).2 hv

end Moment

namespace System

variable {endpoints : List Endpoint} {clients : List (Settings × Placement)}

/-- Fresh replicas hold nothing. -/
theorem holds?_start (e : Endpoint) (key : String) :
    (start endpoints clients).cluster.holds? e key = none := by
  rw [Cluster.holds?]
  cases hs : (start endpoints clients).cluster.store? e with
  | none => rfl
  | some s =>
    -- Every store in the table is one of those that were put into it.
    rcases List.mem_map.mp (Table.mem_of_mem_ofList (Table.get?_eq_some_iff.mp hs))
      with ⟨f, -, heq⟩
    cases heq
    rfl

theorem history_start (who : Nat) (key : String) :
    (start endpoints clients).history who key = .empty := by
  rw [history, start, List.getElem?_map]
  cases clients[who]? <;> rfl

theorem charter_start (who : Nat) :
    (start endpoints clients).charter? who =
      (clients[who]?).map fun p => (p.1.node, p.1.policy, p.2) := by
  rw [charter?, start, List.getElem?_map, Option.map_map]
  rfl

/-- A run leaves what its sessions were told. -/
theorem charter_run (sys : System) (es : List Event) (who : Nat) :
    (sys.run es).charter? who = sys.charter? who ∧
    ∀ (k : Nat) (m : Moment), (sys.chronicle es)[k]? = some m →
      m.system.charter? who = sys.charter? who := by
  refine run_induction (P := fun _ (s : System) => s.charter? who = sys.charter? who) rfl ?_ ?_
  · intro k m _ h
    exact (charter_step m.move who).trans h
  · intro k s other read write h
    exact (charter_retune other who read write).trans h

/-- What a session knew behind a move it knows at every later one. -/
theorem history_le_later {sys : System} {es : List Event} {p q : Nat} {m n : Moment}
    (hm : (sys.chronicle es)[p]? = some m) (hn : (sys.chronicle es)[q]? = some n) (hpq : p < q)
    (who : Nat) (key : String) : m.next.history who key ≤ n.system.history who key := by
  refine run_induction_from (P := fun _ s => m.next.history who key ≤ s.history who key)
    hm (le_refl _) ?_ ?_ hn hpq
  · intro k l _ _ h
    exact le_trans h (l.history_le_next who key)
  · intro k s other read write h
    rw [history_retune]
    exact h

/-- Sessions have their names, and no two have the same. -/
structure Named (names : Nat → Option String) (sys : System) : Prop where
  name : ∀ who, sys.name? who = names who
  distinct : ∀ a b n, names a = some n → names b = some n → a = b

/-- Clients of different names make sessions of different names, for as long
    as the run goes on. -/
theorem named_run {es : List Event} (hdistinct : (clients.map fun p => p.1.node).Nodup) :
    Named (start endpoints clients).name? ((start endpoints clients).run es) ∧
    ∀ (k : Nat) (m : Moment), ((start endpoints clients).chronicle es)[k]? = some m →
      Named (start endpoints clients).name? m.system := by
  have hstart : ∀ who, (start endpoints clients).name? who =
      (clients.map fun p => p.1.node)[who]? := by
    intro who
    rw [name?, charter_start, List.getElem?_map, Option.map_map]
    rfl
  have hstay : ∀ sys : System, (∀ who, sys.charter? who = (start endpoints clients).charter? who) →
      Named (start endpoints clients).name? sys := by
    intro sys hcharter
    constructor
    · intro who
      rw [name?, name?, hcharter]
    · intro a b n ha hb
      rw [hstart] at ha hb
      exact (List.getElem?_inj (List.getElem?_eq_some_iff.mp ha).1 hdistinct).mp
        (ha.trans hb.symm)
  refine ⟨hstay _ fun who => (charter_run _ es who).1, fun k m hm => ?_⟩
  exact hstay _ fun who => (charter_run _ es who).2 k m hm

/-- The session that makes a move was told what its client was. -/
theorem client_of_session {es : List Event} {k : Nat} {m : Moment} {s : Session}
    (hm : ((start endpoints clients).chronicle es)[k]? = some m) (hs : m.session? = some s) :
    ∃ p ∈ clients, s.settings.node = p.1.node ∧ s.settings.policy = p.1.policy ∧
      s.placement = p.2 := by
  have h := ((start endpoints clients).charter_run es m.move.who).2 k m hm
  rw [charter_start, charter?, show m.system.sessions[m.move.who]? = some s from hs,
    Option.map_some, eq_comm, Option.map_eq_some_iff] at h
  rcases h with ⟨p, hp, heq⟩
  rw [Prod.mk.injEq, Prod.mk.injEq] at heq
  exact ⟨p, List.mem_of_getElem? hp, heq.1.symm, heq.2.1.symm, heq.2.2.symm⟩

end System

/-- A run without trouble: every call is handled at once, and its response
    arrives. -/
def promptly (deeds : List (Nat × Operation)) : List Event :=
  deeds.map fun d => .move ⟨d.1, d.2, fun _ => ⟨some 0, .served⟩, ⟨⟨0, 0⟩, ""⟩⟩

theorem promptly_honest (deeds : List (Nat × Operation)) : ∀ e ∈ promptly deeds, e.Honest := by
  intro e he
  rcases List.mem_map.mp he with ⟨d, -, rfl⟩
  intro f
  exact ⟨by simp, by simp⟩

/-- Sessions of these names on the given replicas, which read and write at one
    level and were told nothing else. -/
def standardClients (replicas : ReplicaSet) (level : Level) (names : List String) :
    List (Settings × Placement) :=
  names.map fun name =>
    ({ Settings.standard name with readLevel := level, writeLevel := level }, .uniform replicas)

end QuorumStore
