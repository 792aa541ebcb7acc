import Mathlib.Data.List.Permutation
import QuorumStore.Proofs.System.Past

/-!
# Vectors and Causality

Version vectors compare as causal pasts do, over whole runs.

Every vector in a system counts the writes of some set: a version's vector
those in the past of its write, a session's history those that the session
knows. `Mirrors` says so of one vector and one set. A write is in the set
exactly when the vector has counted it for its session, and every count comes
from a write. The second half is what keeps a session's counts its own: no
vector anywhere counts more for a session than the session does
(`Tracks.le_own`), so the count that a new write adds is news to all of them.

`Tracks` is the invariant of runs. It puts a `Mirrors` on every version sent
out so far and on every history, and it says that replicas hold nothing that
was not sent out. The three kinds of move each keep it. Once it is known, the
comparison of two versions is that of the sets they count (`Tracks.le_iff`).

## Main definitions

* `Mirrors`: A vector counts the writes of a set.
* `Tracks`: All vectors of a system count the writes they should.

## Theorems

* `Tracks.le_own`: No vector counts more for a session than the session does.
* `Tracks.step`: Every move keeps the invariant.
* `tracks_run`: The invariant holds at every place of a run.
* `Tracks.le_iff`: A version lies below another if its write is in the past.
* `System.compare_iff_past`: Comparison is causality.
-/

namespace QuorumStore

variable {names : Nat → Option String} {H : List Moment} {key : String} {k : Nat}

/-- A vector counts, of the writes before a place, exactly those of a set. -/
structure Mirrors (names : Nat → Option String) (H : List Moment) (key : String) (k : Nat)
    (vec : VersionVector) (P : Nat → Prop) : Prop where
  counted : ∀ {who i : Nat} {n : String} {v : Version}, i < k → names who = some n →
    Wrote H key who i v → (P i ↔ v.vector.counter n ≤ vec.counter n)
  /-- A count is the own count of some write. -/
  seen : ∀ n, 0 < vec.counter n → ∃ who i v, i < k ∧ names who = some n ∧
    Wrote H key who i v ∧ v.vector.counter n = vec.counter n

theorem Mirrors.congr {vec : VersionVector} {P Q : Nat → Prop}
    (h : Mirrors names H key k vec P) (hPQ : ∀ i, P i ↔ Q i) : Mirrors names H key k vec Q := by
  constructor
  · intro who i n v hi hname hwrote
    rw [← hPQ]
    exact h.counted hi hname hwrote
  · exact h.seen

/-- A move whose write is beyond the vector leaves it a mirror. -/
theorem Mirrors.extend {vec : VersionVector} {P : Nat → Prop} (h : Mirrors names H key k vec P)
    (hP : ∀ i, P i → i < k)
    (hnew : ∀ who n v, names who = some n → Wrote H key who k v →
      vec.counter n < v.vector.counter n) : Mirrors names H key (k + 1) vec P := by
  constructor
  · intro who i n v hi hname hwrote
    by_cases hik : i = k
    · subst hik
      have hlt := hnew who n v hname hwrote
      constructor
      · intro hPi
        exact absurd (hP i hPi) (Nat.lt_irrefl i)
      · intro hle
        omega
    · exact h.counted (by omega) hname hwrote
  · intro n hn
    rcases h.seen n hn with ⟨who, i, v, hi, hname, hwrote, hcount⟩
    exact ⟨who, i, v, Nat.lt_succ_of_lt hi, hname, hwrote, hcount⟩

/-- All vectors of a system that has come to a place of the run count the
    writes they should, and replicas hold only what was sent out. -/
structure Tracks (names : Nat → Option String) (H : List Moment) (key : String) (k : Nat)
    (sys : System) : Prop where
  stamps : ∀ {who i : Nat} {v : Version}, i < k → Wrote H key who i v →
    Mirrors names H key k v.vector fun j => Past H key j i
  histories : ∀ who, Mirrors names H key k (sys.history who key) fun i => Known H key who k i
  held : ∀ e v, sys.cluster.holds? e key = some v → ∃ who i, i < k ∧ Wrote H key who i v

section Step

variable {sys : System} {m : Moment}

/-- A count for a session is one that the session has made. -/
theorem Tracks.le_own (h : Tracks names H key k sys) (hnamed : System.Named names sys)
    {vec : VersionVector} {P : Nat → Prop} (hvec : Mirrors names H key k vec P) {a : Nat}
    {n : String} (ha : names a = some n) : vec.counter n ≤ (sys.history a key).counter n := by
  by_cases hzero : vec.counter n = 0
  · omega
  · rcases hvec.seen n (by omega) with ⟨b, i, v, hi, hb, hwrote, hcount⟩
    rw [hnamed.distinct b a n hb ha] at hwrote
    -- The session knows its own write, so its history has counted it.
    have hknown : Known H key a k i := .inl ⟨hi, v, hwrote⟩
    rw [← hcount]
    exact ((h.histories a).counted hi ha hwrote).mp hknown

/-- The vector of a new write counts what its session knows, and the write. -/
theorem Tracks.mirrors_stamp (h : Tracks names H key k m.system)
    (hnamed : System.Named names m.system) (hm : H[k]? = some m) {v : Version}
    (hstamp : m.stamp? key = some v) :
    Mirrors names H key (k + 1) v.vector fun i => i = k ∨ Known H key m.move.who k i := by
  rcases (Moment.step_stamp hstamp).1 with ⟨n, hn, hvector⟩
  rw [hnamed.name] at hn
  have hhistory := h.histories m.move.who
  have hhere : Wrote H key m.move.who k v := (wrote_at hm).mpr ⟨rfl, hstamp⟩
  have hself : v.vector.counter n = (m.system.history m.move.who key).counter n + 1 := by
    rw [hvector, VersionVector.counter_update_self]
  have hother : ∀ n', n' ≠ n →
      v.vector.counter n' = (m.system.history m.move.who key).counter n' := by
    intro n' hne
    rw [hvector, VersionVector.counter_update_other _ _ hne]
  -- The new count is the session's own, and of this write only.
  constructor
  · intro who i n' u hi hname hwrote
    by_cases hik : i = k
    · subst hik
      rw [(hwrote.unique hhere).2]
      exact iff_of_true (.inl rfl) (Nat.le_refl _)
    · have hcounted := hhistory.counted (by omega) hname hwrote
      by_cases hnn : n' = n
      · subst hnn
        -- An earlier write of the session itself is counted already.
        rw [hnamed.distinct who m.move.who n' hname hn] at hwrote
        have hknown : Known H key m.move.who k i := .inl ⟨by omega, u, hwrote⟩
        have hle := hcounted.mp hknown
        exact iff_of_true (.inr hknown) (by omega)
      · rw [hother n' hnn, ← hcounted]
        exact or_iff_right hik
  · intro n' hpos
    by_cases hnn : n' = n
    · subst hnn
      exact ⟨m.move.who, k, v, Nat.lt_succ_self k, hn, hhere, rfl⟩
    · rw [hother n' hnn] at hpos ⊢
      rcases hhistory.seen n' hpos with ⟨who, i, u, hi, hname, hwrote, hcount⟩
      exact ⟨who, i, u, Nat.lt_succ_of_lt hi, hname, hwrote, hcount⟩

/-- A write that is sent out keeps the invariant. -/
theorem Tracks.step_stamp (h : Tracks names H key k m.system) (hnamed : System.Named names m.system)
    (hm : H[k]? = some m) {v : Version} (hstamp : m.stamp? key = some v) :
    Tracks names H key (k + 1) m.next := by
  rcases Moment.step_stamp hstamp with ⟨⟨n, hn, hvector⟩, hhistories, -⟩
  rw [hnamed.name] at hn
  have hhere : Wrote H key m.move.who k v := (wrote_at hm).mpr ⟨rfl, hstamp⟩
  have hnew := h.mirrors_stamp hnamed hm hstamp
  -- The new count is beyond every vector there is.
  have hbeyond : ∀ {vec P}, Mirrors names H key k vec P → ∀ who n' u, names who = some n' →
      Wrote H key who k u → vec.counter n' < u.vector.counter n' := by
    intro vec P hvec who n' u hname hwrote
    rcases hwrote.unique hhere with ⟨rfl, rfl⟩
    rw [hn, Option.some.injEq] at hname
    subst hname
    have hle := h.le_own hnamed hvec hn
    rw [hvector, VersionVector.counter_update_self]
    omega
  constructor
  · intro who i u hi hwrote
    by_cases hik : i = k
    · subst hik
      rw [(hwrote.unique hhere).2]
      exact hnew.congr fun j => (past_iff_known hhere).symm
    · have hstamps := h.stamps (by omega) hwrote
      refine hstamps.extend (fun j hj => ?_) (hbeyond hstamps)
      have hle := hj.le
      omega
  · intro who
    rw [hhistories]
    by_cases hwho : who = m.move.who
    · rw [if_pos hwho]
      refine hnew.congr fun i => ?_
      rw [known_succ hm, Moment.read?_of_stamp? hstamp, hstamp, hwho, or_comm]
      simp
    · rw [if_neg hwho]
      have hhistory := h.histories who
      refine (hhistory.extend (fun i hi => hi.lt) (hbeyond hhistory)).congr fun i => ?_
      rw [known_succ hm]
      simp [Ne.symm hwho]
  · intro e u hu
    rcases Moment.held_of_stamp hstamp hu with rfl | hold
    · exact ⟨m.move.who, k, Nat.lt_succ_self k, hhere⟩
    · rcases h.held e u hold with ⟨who, i, hi, hwrote⟩
      exact ⟨who, i, Nat.lt_succ_of_lt hi, hwrote⟩

/-- A move that is no write adds nothing to be counted. -/
theorem Mirrors.pass {vec : VersionVector} {P : Nat → Prop} (h : Mirrors names H key k vec P)
    (hP : ∀ i, P i → i < k) (hm : H[k]? = some m) (hstamp : m.stamp? key = none) :
    Mirrors names H key (k + 1) vec P := by
  refine h.extend hP fun who n v _ hwrote => ?_
  rw [wrote_at hm, hstamp] at hwrote
  cases hwrote.2

/-- What a move that is no write leaves of the invariant, the histories apart. -/
theorem Tracks.pass (h : Tracks names H key k m.system) (hm : H[k]? = some m)
    (hstamp : m.stamp? key = none)
    (hholds : ∀ e, m.next.cluster.holds? e key = m.system.cluster.holds? e key)
    (hhistories : ∀ who, Mirrors names H key (k + 1) (m.next.history who key)
      fun i => Known H key who (k + 1) i) : Tracks names H key (k + 1) m.next := by
  constructor
  · intro who i v hi hwrote
    by_cases hik : i = k
    · rw [hik, wrote_at hm, hstamp] at hwrote
      cases hwrote.2
    · refine (h.stamps (by omega) hwrote).pass (fun j hj => ?_) hm hstamp
      have hle := hj.le
      omega
  · exact hhistories
  · intro e v hv
    rw [hholds] at hv
    rcases h.held e v hv with ⟨who, i, hi, hwrote⟩
    exact ⟨who, i, Nat.lt_succ_of_lt hi, hwrote⟩

/-- Every version that a read gathers was sent out before. -/
theorem Tracks.sent (h : Tracks names H key k m.system)
    (hhonest : ∀ e, (m.move.plan e).Honest) {replies : List (Endpoint × Option Version)}
    (hread : m.read? key = some replies) {v : Version} (hv : v ∈ versions replies) :
    ∃ who l, l < k ∧ Wrote H key who l v := by
  rcases Moment.held_of_read hhonest hread hv with ⟨e, he⟩
  exact h.held e v he

/-- The history behind a read counts what its session knows then. -/
theorem Tracks.mirrors_read (h : Tracks names H key k m.system)
    (hhonest : ∀ e, (m.move.plan e).Honest) (hm : H[k]? = some m)
    (hstamp : m.stamp? key = none) {replies : List (Endpoint × Option Version)}
    (hread : m.read? key = some replies) :
    Mirrors names H key k (m.next.history m.move.who key) fun i =>
      Known H key m.move.who (k + 1) i := by
  have hhistory := (Moment.step_read hread).1
  have hold := h.histories m.move.who
  constructor
  · intro who i n u hi hname hwrote
    rw [hhistory, known_succ_read hm hstamp hread, hold.counted hi hname hwrote]
    refine or_congr_right ?_
    constructor
    · rintro ⟨v, hv, other, l, hl, hlk, hpast⟩
      exact ⟨v, hv, ((h.stamps hlk hl).counted hi hname hwrote).mp hpast⟩
    · rintro ⟨v, hv, hle⟩
      rcases h.sent hhonest hread hv with ⟨other, l, hlk, hl⟩
      exact ⟨v, hv, other, l, hl, hlk, ((h.stamps hlk hl).counted hi hname hwrote).mpr hle⟩
  · intro n hpos
    rcases Moment.counter_of_read hread n with hcount | ⟨v, hv, hcount⟩
    · rw [hcount] at hpos ⊢
      exact hold.seen n hpos
    · rw [hcount] at hpos ⊢
      rcases h.sent hhonest hread hv with ⟨other, l, hlk, hl⟩
      exact (h.stamps hlk hl).seen n hpos

/-- A read that gathers its replies keeps the invariant. -/
theorem Tracks.step_read (h : Tracks names H key k m.system)
    (hhonest : ∀ e, (m.move.plan e).Honest) (hm : H[k]? = some m)
    (hstamp : m.stamp? key = none) {replies : List (Endpoint × Option Version)}
    (hread : m.read? key = some replies) : Tracks names H key (k + 1) m.next := by
  rcases Moment.step_read hread with ⟨-, hothers, hholds⟩
  refine h.pass hm hstamp hholds fun who => ?_
  by_cases hwho : who = m.move.who
  · subst hwho
    refine (h.mirrors_read hhonest hm hstamp hread).pass (fun i hi => ?_) hm hstamp
    rcases (known_succ_read hm hstamp hread).mp hi with hknown | ⟨v, -, other, l, -, hlk, hpast⟩
    · exact hknown.lt
    · have hle := hpast.le
      omega
  · rw [hothers who hwho]
    refine ((h.histories who).pass (fun i hi => hi.lt) hm hstamp).congr fun i => ?_
    rw [known_succ hm]
    simp [Ne.symm hwho]

/-- Every move keeps the invariant. -/
theorem Tracks.step (h : Tracks names H key k m.system) (hnamed : System.Named names m.system)
    (hhonest : ∀ e, (m.move.plan e).Honest) (hm : H[k]? = some m) :
    Tracks names H key (k + 1) m.next := by
  cases hstamp : m.stamp? key with
  | some v => exact h.step_stamp hnamed hm hstamp
  | none =>
    cases hread : m.read? key with
    | some replies => exact h.step_read hhonest hm hstamp hread
    | none =>
      rcases Moment.step_other hstamp hread with ⟨hhistories, hholds⟩
      refine h.pass hm hstamp hholds fun who => ?_
      rw [hhistories]
      refine ((h.histories who).pass (fun i hi => hi.lt) hm hstamp).congr fun i => ?_
      rw [known_succ hm, hstamp, hread]
      simp

end Step

section Runs

variable {endpoints : List Endpoint} {clients : List (Settings × Placement)} {es : List Event}

/-- The invariant holds at every move of a run, and at its end. -/
theorem tracks_run (hdistinct : (clients.map fun p => p.1.node).Nodup)
    (hhonest : ∀ e ∈ es, e.Honest) (key : String) :
    Tracks (System.start endpoints clients).name? ((System.start endpoints clients).chronicle es)
      key ((System.start endpoints clients).chronicle es).length
      ((System.start endpoints clients).run es) ∧
    ∀ (k : Nat) (m : Moment), ((System.start endpoints clients).chronicle es)[k]? = some m →
      Tracks (System.start endpoints clients).name?
        ((System.start endpoints clients).chronicle es) key k m.system := by
  refine System.run_induction (P := fun k sys => Tracks (System.start endpoints clients).name?
    ((System.start endpoints clients).chronicle es) key k sys) ?_ ?_ ?_
  · constructor
    · intro who i v hi
      exact absurd hi (Nat.not_lt_zero i)
    · intro who
      rw [System.history_start]
      constructor
      · intro a i n v hi
        exact absurd hi (Nat.not_lt_zero i)
      · intro n hn
        rw [VersionVector.counter_empty] at hn
        exact absurd hn (Nat.lt_irrefl 0)
    · intro e v hv
      rw [System.holds?_start] at hv
      cases hv
  · intro k m hm h
    exact h.step ((System.named_run hdistinct).2 k m hm)
      (System.honest_of_chronicle hhonest (List.mem_of_getElem? hm)) hm
  · intro k sys who read write h
    constructor
    · exact h.stamps
    · intro other
      rw [System.history_retune]
      exact h.histories other
    · exact h.held

end Runs

/-- A version lies below another exactly when its write is in the past of the
    other's. -/
theorem Tracks.le_iff {sys : System} (h : Tracks names H key k sys)
    (hnamed : ∀ (i : Nat) (m : Moment), H[i]? = some m → System.Named names m.system)
    {a b i j : Nat} {v w : Version}
    (hik : i < k) (hjk : j < k) (hi : Wrote H key a i v) (hj : Wrote H key b j w) :
    v.vector ≤ w.vector ↔ Past H key i j := by
  constructor
  · intro hle
    rcases hi with ⟨m, hm, rfl, hstamp⟩
    rcases (Moment.step_stamp hstamp).1 with ⟨n, hn, -⟩
    rw [(hnamed i m hm).name] at hn
    exact ((h.stamps hjk hj).counted hik hn ⟨m, hm, rfl, hstamp⟩).mpr (hle n)
  · -- Pasts are closed, so whatever the one has counted the other has too.
    intro hpast n
    by_cases hzero : v.vector.counter n = 0
    · omega
    · -- The count is that of a write in the past of both.
      rcases (h.stamps hik hi).seen n (by omega) with ⟨c, l, u, hlk, hc, hl, hcount⟩
      have hli : Past H key l i := ((h.stamps hik hi).counted hlk hc hl).mpr (Nat.le_of_eq hcount)
      rw [← hcount]
      exact ((h.stamps hjk hj).counted hlk hc hl).mp (hli.trans hpast)

/-- Versions lie below each other only if they are of one write. -/
theorem Tracks.eq_of_le {sys : System} (h : Tracks names H key k sys)
    (hnamed : ∀ (i : Nat) (m : Moment), H[i]? = some m → System.Named names m.system)
    {a b i j : Nat} {v w : Version}
    (hik : i < k) (hjk : j < k) (hi : Wrote H key a i v) (hj : Wrote H key b j w)
    (hvw : v.vector ≤ w.vector) (hwv : w.vector ≤ v.vector) : i = j :=
  Nat.le_antisymm ((h.le_iff hnamed hik hjk hi hj).mp hvw).le
    ((h.le_iff hnamed hjk hik hj hi).mp hwv).le

namespace System

/-- Comparison is causality. In every run of sessions with names of their own,
    two writes of a key compare as their pasts do, and never as equal. What
    the comparison is about is well determined, since every version that a
    read takes in is that of exactly one write, made before. And so a conflict
    is one in fact: no sibling's write is in the past of another's.

    Replicas handle a call while its operation lasts, or not at all. A call that
    is cut off by the end of its operation has no later effect; a request that
    a replica takes up only then is not covered. -/
theorem compare_iff_past (endpoints : List Endpoint) (clients : List (Settings × Placement))
    (hdistinct : (clients.map fun p => p.1.node).Nodup) (es : List Event)
    (hhonest : ∀ e ∈ es, e.Honest) (key : String) :
    let H := (start endpoints clients).chronicle es
    (∀ a i v b j w, Wrote H key a i v → Wrote H key b j w → i ≠ j →
      (v.vector.compare w.vector = .older ↔ Past H key i j) ∧
      (v.vector.compare w.vector = .newer ↔ Past H key j i) ∧
      (v.vector.compare w.vector = .concurrent ↔ ¬ Past H key i j ∧ ¬ Past H key j i) ∧
      v.vector.compare w.vector ≠ .equal) ∧
    (∀ a g v, Took H key a g v → ∃ b l, l < g ∧ Wrote H key b l v ∧
      ∀ c i, Wrote H key c i v → i = l) ∧
    ∀ g m k siblings, H[g]? = some m → m.move.operation = .get key →
      m.result? = some (.error (.conflict k siblings)) →
      (∀ x ∈ siblings, Took H key m.move.who g x) ∧
      siblings.Pairwise fun x y => ∀ a i b j, Wrote H key a i x → Wrote H key b j y →
        ¬ Past H key i j ∧ ¬ Past H key j i := by
  intro H
  -- At the end of the run every write is counted, so all is said by `le_iff`.
  have hnamed := (@named_run endpoints clients es hdistinct).2
  rcases @tracks_run endpoints clients es hdistinct hhonest key with ⟨hend, hall⟩
  have hle : ∀ {a i v b j w}, Wrote H key a i v → Wrote H key b j w →
      (v.vector ≤ w.vector ↔ Past H key i j) :=
    fun hi hj => hend.le_iff hnamed hi.lt_length hj.lt_length hi hj
  refine ⟨?_, ?_, ?_⟩
  · intro a i v b j w hi hj hij
    -- Pasts go back in time, so only one of the two can be in the other's.
    have hanti : Past H key i j → ¬ Past H key j i :=
      fun h h' => hij (Nat.le_antisymm h.le h'.le)
    rw [VersionVector.compare_eq_older_iff, VersionVector.compare_eq_newer_iff,
      VersionVector.compare_eq_concurrent_iff, ne_eq, VersionVector.compare_eq_equal_iff,
      lt_iff_le_not_ge, lt_iff_le_not_ge, hle hi hj, hle hj hi]
    exact ⟨and_iff_left_of_imp hanti, and_iff_left_of_imp fun h h' => hanti h' h, Iff.rfl,
      fun h => hanti h.1 h.2⟩
  · rintro a g v ⟨m, replies, hm, -, hread, hv⟩
    rcases (hall g m hm).sent (honest_of_chronicle hhonest (List.mem_of_getElem? hm)) hread hv
      with ⟨b, l, hlg, hl⟩
    refine ⟨b, l, hlg, hl, fun c i hi => ?_⟩
    exact hend.eq_of_le hnamed hi.lt_length hl.lt_length hi hl (le_refl _) (le_refl _)
  · intro g m k siblings hm hop hresult
    rcases Option.isSome_iff_exists.mp (Moment.read?_isSome_iff.mpr
      ⟨hop, .inr (.inr ⟨k, siblings, hresult⟩)⟩) with ⟨replies, hread⟩
    rcases Moment.result?_of_read? hread with ⟨s, -, hconclude⟩
    rw [hresult, Option.some.injEq] at hconclude
    have hsiblings : siblings = Version.reconcile (versions replies) := by
      cases hcase : Session.concludeGet s.settings.policy key replies.length
        (Version.reconcile (versions replies)) with
      | ok f =>
        rw [hcase] at hconclude
        cases hconclude
      | error err =>
        rw [hcase] at hconclude
        cases hconclude
        exact Session.concludeGet_conflict hcase
    have hfrontier := Version.frontier_reconcile (versions replies)
    rw [hsiblings]
    refine ⟨fun x hx => ⟨m, replies, hm, rfl, hread, hfrontier.sound x hx⟩, ?_⟩
    refine hfrontier.apart.imp fun hxy a i b j hi hj => ?_
    rw [← hle hi hj, ← hle hj hi]
    exact hxy

/-- Two sessions write without having read. One of them reads and writes again:
    the first two writes have not seen each other, the third has seen both. -/
theorem compare_iff_past_strangers :
    let H := (start [⟨"a", 1⟩]
      (standardClients ⟨[⟨"a", 1⟩], by decide⟩ .one ["ann", "ben"])).chronicle
      (promptly [(0, .connect), (1, .connect), (0, .put "k" "x"), (1, .put "k" "y"),
        (0, .get "k"), (0, .put "k" "z")])
    ¬ Past H "k" 2 3 ∧ ¬ Past H "k" 3 2 ∧ Past H "k" 2 5 ∧ Past H "k" 3 5 := by
  intro H
  have hx : Wrote H "k" 0 2 (.live "x" (VersionVector.empty.update "ann" ⟨0, 0⟩)) :=
    wrote_iff.mpr (by cbv)
  have hy : Wrote H "k" 1 3 (.live "y" (VersionVector.empty.update "ben" ⟨0, 0⟩)) :=
    wrote_iff.mpr (by cbv)
  have hz : Wrote H "k" 0 5 (.live "z" (((VersionVector.empty.update "ann" ⟨0, 0⟩).merge
      (VersionVector.empty.update "ben" ⟨0, 0⟩)).update "ann" ⟨0, 0⟩)) :=
    wrote_iff.mpr (by cbv)
  rcases compare_iff_past [⟨"a", 1⟩] (standardClients ⟨[⟨"a", 1⟩], by decide⟩ .one ["ann", "ben"])
    (by decide) _ (promptly_honest _) "k" with ⟨hcompare, -, -⟩
  have hxy := hcompare _ _ _ _ _ _ hx hy (by decide)
  have hxz := hcompare _ _ _ _ _ _ hx hz (by decide)
  have hyz := hcompare _ _ _ _ _ _ hy hz (by decide)
  have hapart := hxy.2.2.1.mp (by cbv)
  exact ⟨hapart.1, hapart.2, hxz.1.mp (by cbv), hyz.1.mp (by cbv)⟩

end System

end QuorumStore
