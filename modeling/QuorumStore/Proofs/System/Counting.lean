import Mathlib.Data.List.Permutation
import QuorumStore.Proofs.Session.Counting
import QuorumStore.Proofs.System.Run

/-!
# Counting Runs

What the counts of a run say about it.

A number that is counted stands for the moves at which it is, by one induction
over the run (`System.count_run`). What is left to say is which moves these are,
in terms of what their callers see. For operations and conflicts it is what one
expects. For time-outs it is not quite: those are counted that have taken as
long as they may, and a caller may be told of others.

## Main definitions

* `Moment.counted`: What a move adds to the counts.
* `Moment.attended`, `Moment.conflicted`, `Moment.timedOut`: What callers see.
* `Moment.elapsed`, `Moment.limit`: How long a move took, and may take.
* `Moment.GivesUp`: A move is out of reach for no cause.

## Theorems

* `Moment.counted_operations`, `Moment.counted_conflicts`,
  `Moment.counted_timeouts`: Which moves are counted.
* `Moment.timedOut_cases`: Who is told of a time-out too early.
* `System.count_run`: A count stands for moves.
* `System.counters_run`: What all counts of a run stand for.
* `System.counters_run_broken`: A time-out that is not counted.
-/

namespace QuorumStore

namespace Moment

variable {m : Moment}

/-- What the move adds to the counts. -/
def counted (m : Moment) : Counters :=
  match m.system.effect? m.move with
  | some e => e.counters
  | none => {}

/-- The error that the move ends in. -/
def failure? (m : Moment) : Option OpError :=
  match m.result? with
  | some (.error e) => some e
  | _ => none

/-- How long the move took. -/
def elapsed (m : Moment) : Nat :=
  match m.system.effect? m.move with
  | some e => e.elapsed
  | none => 0

/-- How long its calls may take. -/
def limit (m : Moment) : Nat :=
  match m.session? with
  | some s => s.limit m.move.operation
  | none => 0

/-- The move is an operation of a kind that somebody makes, and is not told that
    there is no connection. -/
def attended (m : Moment) (kind : Kind) : Bool :=
  m.move.operation.kind == kind && m.session?.isSome && m.failure? != some .notConnected

/-- The move is a read that is told of a conflict. -/
def conflicted (m : Moment) : Bool :=
  m.move.operation.kind == .get && m.failure?.any fun e => match e with
    | .conflict _ _ => true
    | _ => false

/-- The move is an operation on a key that is told that it timed out. -/
def timedOut (m : Moment) : Bool :=
  m.move.operation.keyed && m.failure?.any fun e => match e with
    | .timeout _ _ _ => true
    | _ => false

/-- The move gives up: it is out of reach before its deadline, for no cause. -/
def GivesUp (m : Moment) : Prop :=
  ∃ s, m.session? = some s ∧
    s.GivesUp m.system.cluster m.move.plan m.move.ticket m.move.operation

theorem timedOut_iff : m.timedOut = true ↔
    m.move.operation.keyed = true ∧ ∃ kind needed got,
      m.result? = some (.error (.timeout kind needed got)) := by
  rw [timedOut, Bool.and_eq_true, failure?]
  refine and_congr_right fun _ => ?_
  cases m.result? with
  | none => simp
  | some r =>
    cases r with
    | error e => cases e <;> simp
    | ok a => simp

section Somebody

variable {s : Session} (hs : m.session? = some s)
include hs

/-- What somebody does is counted by what it comes to. -/
theorem counted_eq : m.counted = Session.tallied m.move.operation.kind m.limit m.elapsed
    (s.perform m.system.cluster m.move.plan m.move.ticket m.move.operation).result := by
  rw [counted, elapsed, limit, System.effect?, show m.system.sessions[m.move.who]? = some s from hs,
    hs]
  exact s.counters_perform m.system.cluster m.move.plan m.move.ticket m.move.operation

theorem failure?_eq : m.failure? =
    match (s.perform m.system.cluster m.move.plan m.move.ticket m.move.operation).result with
    | .error e => some e
    | .ok _ => none := by
  rw [failure?, result?_eq hs]
  cases (s.perform m.system.cluster m.move.plan m.move.ticket m.move.operation).result <;> rfl

end Somebody

theorem of_nobody (hs : m.session? = none) : m.counted = {} ∧ m.failure? = none := by
  have heffect : m.system.effect? m.move = none := by
    rw [System.effect?, show m.system.sessions[m.move.who]? = none from hs, Option.map_none]
  rw [counted, failure?, result?, heffect]
  exact ⟨rfl, rfl⟩

/-- The number of operations of a kind stands for those that were attended to. -/
theorem counted_operations (m : Moment) {kind : Kind} (hkind : kind ≠ .ping) :
    m.counted.operations kind = if m.attended kind then 1 else 0 := by
  cases hs : m.session? with
  | none =>
    rw [(of_nobody hs).1, attended, hs]
    cases kind <;> simp [Counters.operations]
  | some s =>
    -- An operation counts for its own kind, and for no other.
    have hcounted : m.move.operation.kind.counted.operations kind =
        if m.move.operation.kind = kind then 1 else 0 := by
      cases kind <;> cases m.move.operation.kind <;> first | rfl | exact absurd rfl hkind
    rw [counted_eq hs, Session.operations_tallied, attended, failure?_eq hs, hs]
    cases (s.perform m.system.cluster m.move.plan m.move.ticket m.move.operation).result with
    | error e => cases e <;> simp [hcounted]
    | ok a => simp [hcounted]

/-- The number of conflicts stands for the reads that were told of one. -/
theorem counted_conflicts (m : Moment) :
    m.counted.conflicts = if m.conflicted then 1 else 0 := by
  cases hs : m.session? with
  | none => simp [of_nobody hs, conflicted]
  | some s =>
    rw [counted_eq hs, Session.conflicts_tallied, conflicted, failure?_eq hs]
    cases hr : (s.perform m.system.cluster m.move.plan m.move.ticket m.move.operation).result with
    | error e =>
      cases e with
      | conflict k siblings => simp [Session.perform_conflict hr]
      | _ => simp
    | ok a => simp

/-- The number of time-outs stands for those that took as long as they may. -/
theorem counted_timeouts (m : Moment) :
    m.counted.timeouts = if m.timedOut && m.elapsed == m.limit then 1 else 0 := by
  cases hs : m.session? with
  | none => simp [of_nobody hs, timedOut]
  | some s =>
    rw [counted_eq hs, Session.timeouts_tallied, timedOut, failure?_eq hs]
    cases hr : (s.perform m.system.cluster m.move.plan m.move.ticket m.move.operation).result with
    | error e =>
      cases e with
      | timeout kind needed got =>
        have hkeyed := ((s.perform_timeout m.system.cluster m.move.plan m.move.ticket
          m.move.operation).1 ⟨kind, needed, got, hr⟩).1
        simp [hkeyed]
      | _ => simp
    | ok a => simp

/-- What times out has taken as long as it may, unless it has given up. -/
theorem timedOut_cases (m : Moment) : (m.timedOut = true → m.elapsed ≤ m.limit) ∧
    (m.GivesUp ↔ m.timedOut = true ∧ m.elapsed < m.limit) := by
  cases hs : m.session? with
  | none => simp [timedOut, of_nobody hs, GivesUp, hs]
  | some s =>
    have helapsed : m.elapsed =
        (s.perform m.system.cluster m.move.plan m.move.ticket m.move.operation).elapsed := by
      rw [elapsed, System.effect?, show m.system.sessions[m.move.who]? = some s from hs]
      rfl
    have hlimit : m.limit = s.limit m.move.operation := by rw [limit, hs]
    rcases s.perform_timeout m.system.cluster m.move.plan m.move.ticket m.move.operation
      with ⟨htimeout, hgivesUp⟩
    have htimedOut : m.timedOut = true ↔ ∃ kind needed got,
        (s.perform m.system.cluster m.move.plan m.move.ticket m.move.operation).result =
          .error (.timeout kind needed got) := by
      rw [timedOut_iff, result?_eq hs]
      simp only [Option.some.injEq]
      exact ⟨fun h => h.2, fun h => ⟨(htimeout h).1, h⟩⟩
    rw [helapsed, hlimit, htimedOut, GivesUp, ← hgivesUp]
    refine ⟨fun h => (htimeout h).2, ?_, fun h => ⟨s, hs, h⟩⟩
    rintro ⟨t, ht, h⟩
    rw [hs, Option.some.injEq] at ht
    rwa [ht]

theorem GivesUp.exists_broken (h : m.GivesUp) : ∃ e, (m.move.plan e).fate = .broken := by
  rcases h with ⟨s, -, h⟩
  exact Session.GivesUp.exists_broken h

end Moment

namespace System

/-- A number that is counted stands for the moves at which it is. -/
theorem count_run {f : Counters → Nat} {p : Moment → Bool}
    (hadd : ∀ a b, f (a.add b) = f a + f b)
    (hcounted : ∀ m : Moment, f m.counted = if p m then 1 else 0) (sys : System)
    (es : List Event) :
    f (sys.run es).counters = f sys.counters + (sys.chronicle es).countP p := by
  -- The induction is on the events; the system is the one they find.
  induction es generalizing sys with
  | nil => rfl
  | cons e es ih =>
    cases e with
    | retune who read write => exact ih (sys.retune who read write)
    | move m =>
      have hstep : (sys.step m).counters = sys.counters.add (⟨sys, m⟩ : Moment).counted := by
        rw [step, Moment.counted]
        cases sys.effect? m <;> rfl
      rw [show sys.run (.move m :: es) = (sys.step m).run es from rfl, ih, hstep, hadd, hcounted,
        chronicle, List.countP_cons]
      omega

/-- What the counts of a run stand for. Each kind of operation is counted as
    often as one was made and not turned away for want of a connection, and
    conflicts as often as a read was told of one. Time-outs are counted as often
    as an operation on a key was told that it timed out after as long as its
    calls may take. It is told so earlier exactly if it gives up, and that takes
    a call that breaks off. So all that are told so are counted and have waited
    for it, exactly if none gives up. -/
theorem counters_run (sys : System) (es : List Event) :
    let H := sys.chronicle es
    let before := sys.counters
    let after := (sys.run es).counters
    after.gets = before.gets + H.countP (·.attended .get) ∧
    after.puts = before.puts + H.countP (·.attended .put) ∧
    after.deletes = before.deletes + H.countP (·.attended .delete) ∧
    after.stats = before.stats + H.countP (·.attended .stat) ∧
    after.conflicts = before.conflicts + H.countP (·.conflicted) ∧
    after.timeouts = before.timeouts + H.countP (fun m => m.timedOut && m.elapsed == m.limit) ∧
    (∀ m ∈ H, m.timedOut = true → m.elapsed = m.limit ∨ m.elapsed < m.limit ∧ m.GivesUp) ∧
    (∀ m ∈ H, m.GivesUp → m.timedOut = true ∧ m.elapsed < m.limit ∧
      ∃ e, (m.move.plan e).fate = .broken) ∧
    ((after.timeouts = before.timeouts + H.countP (·.timedOut) ∧
      ∀ m ∈ H, m.timedOut = true → m.elapsed = m.limit) ↔ ∀ m ∈ H, ¬ m.GivesUp) := by
  intro H before after
  have hoperations : ∀ kind, kind ≠ .ping →
      after.operations kind = before.operations kind + H.countP (·.attended kind) := by
    intro kind hkind
    exact @count_run (fun c => c.operations kind) (·.attended kind)
      (fun a b => Counters.operations_add a b kind) (fun m => m.counted_operations hkind) sys es
  have htimeouts : after.timeouts =
      before.timeouts + H.countP (fun m => m.timedOut && m.elapsed == m.limit) :=
    count_run (fun _ _ => rfl) Moment.counted_timeouts sys es
  refine ⟨hoperations .get (by simp), hoperations .put (by simp), hoperations .delete (by simp),
    hoperations .stat (by simp), count_run (fun _ _ => rfl) Moment.counted_conflicts sys es,
    htimeouts, fun m _ hm => ?_, fun m _ hm => ?_, ?_, fun hnone => ?_⟩
  · rcases Nat.lt_or_eq_of_le (m.timedOut_cases.1 hm) with hlt | heq
    · exact .inr ⟨hlt, m.timedOut_cases.2.mpr ⟨hm, hlt⟩⟩
    · exact .inl heq
  · exact ⟨(m.timedOut_cases.2.mp hm).1, (m.timedOut_cases.2.mp hm).2, hm.exists_broken⟩
  · rintro ⟨-, hfull⟩ m hm hgives
    rcases m.timedOut_cases.2.mp hgives with ⟨htimedOut, hlt⟩
    exact absurd (hfull m hm htimedOut) (Nat.ne_of_lt hlt)
  · have hfull : ∀ m ∈ H, m.timedOut = true → m.elapsed = m.limit := by
      intro m hm htimedOut
      refine Nat.le_antisymm (m.timedOut_cases.1 htimedOut) (Nat.le_of_not_lt fun hlt => ?_)
      exact hnone m hm (m.timedOut_cases.2.mpr ⟨htimedOut, hlt⟩)
    -- The two counts are of the same moves then.
    refine ⟨htimeouts.trans (congrArg _ (List.countP_congr fun m hm => ?_)), hfull⟩
    rw [Bool.and_eq_true, beq_iff_eq]
    exact and_iff_left_of_imp (hfull m hm)

/-- A session reads a key twice from two replicas. The first time one of them
    never answers, and the session waits for as long as it may. The second time
    the call to it breaks off. -/
theorem counters_run_broken :
    let all : ReplicaSet := ⟨[⟨"a", 1⟩, ⟨"a", 2⟩], by decide⟩
    let get (p : Plan) : Event := .move ⟨0, .get "k",
      fun e => if e.port = 1 then ⟨some 0, .served⟩ else p, ⟨⟨0, 0⟩, ""⟩⟩
    let es := promptly [(0, .connect)] ++ [get ⟨none, .served⟩, get ⟨some 0, .broken⟩]
    let sys := start all.endpoints (standardClients all .all ["ann"])
    let H := sys.chronicle es
    H.map Moment.result? = [some (.ok (.reached 2)), some (.error (.timeout .get 2 1)),
      some (.error (.timeout .get 2 1))] ∧
    H.map Moment.elapsed = [0, 5000, 0] ∧ H.map Moment.limit = [2000, 5000, 5000] ∧
    H.countP (·.timedOut) = 2 ∧ (sys.run es).counters.timeouts = 1 :=
  ⟨by cbv, by cbv, by cbv, by cbv, by cbv⟩

end System

end QuorumStore
